import Templating.Event.Describe
import Templating.Library.Directory
import Templating.Options
import Templating.Report
import Templating.Session

/-!
# Commands

What the command line program does, as a function: from its arguments and the
files it finds to what it prints, the exit code, and the files it leaves.
-/

namespace Templating

inductive Command where
  | help
  | version
  /-- Compile every template below a directory. -/
  | generate (root : String) (options : Options)
  /-- The same without writing anything. -/
  | check (root : String) (options : Options)
  /-- Print the events of one template. -/
  | parse (path : String)
  /-- List the templates below a directory that use a template. -/
  | dependents (root name : String)

namespace Command

/-- Why arguments name no command. -/
inductive Fault where
  | unknown (word : String)
  /-- Arguments are missing; how the command is used. -/
  | incomplete (usage : List String)
  | options (fault : Options.Fault)

/-- Read the arguments. Without any, help is asked for. -/
def ofArguments : List String → Except Fault Command
  | [] | "help" :: _ | "--help" :: _ | "-h" :: _ => .ok help
  | "version" :: _ | "--version" :: _ | "-v" :: _ => .ok version
  | "generate" :: root :: rest =>
      match Options.ofArguments rest with
      | .ok options => .ok (generate root options)
      | .error fault => .error (.options fault)
  | ["generate"] => .error (.incomplete ["Usage: stencil generate <root> [-o <dir>] [options]"])
  | "check" :: root :: rest =>
      match Options.ofArguments rest with
      | .ok options => .ok (check root options)
      | .error fault => .error (.options fault)
  | ["check"] => .error (.incomplete ["Usage: stencil check <root> [options]"])
  | "parse" :: path :: _ => .ok (parse path)
  | ["parse"] => .error (.incomplete ["Usage: stencil parse <file>"])
  | "deps" :: root :: name :: _ => .ok (dependents root name)
  | "deps" :: _ =>
      .error (.incomplete ["Usage: stencil deps <root> <name>",
        "Example: stencil deps templates tag/card.stn"])
  | word :: _ => .error (.unknown word)

/-- Lines of output. -/
def lines (ls : List String) : String :=
  String.join (ls.map fun l => l ++ "\n")

def usage : String :=
  lines [
    "Stencil template compiler",
    "",
    "Usage: stencil <command> [options]",
    "",
    "Commands:",
    "  generate <root>       Compile every template below <root>",
    "  check <root>          Generate in memory and report errors",
    "  parse <file>          Print the parse events of one template",
    "  deps <root> <name>    List the templates that use <name>",
    "  help                  Show this help message",
    "  version               Show version information",
    "",
    "Options (generate, check):",
    "  -o <dir>                   Output directory (default: stencil-generated)",
    "  --package=<name>           Root package of generated units",
    "  --html-tags=<a,b>          HTML tags handed to the hook",
    "  --html-attributes=<a,b>    HTML attributes handed to the hook",
    "  --binary-threshold=<n>     Move text longer than n bytes to a binary payload",
    "  --max-literal=<n>          Split literals longer than n bytes",
    "",
    "Logging is controlled by RUST_LOG, e.g. RUST_LOG=stencilc=debug.",
    "",
    "Examples:",
    "  stencil generate templates -o src/generated",
    "  stencil check templates --html-tags=form --html-attributes=action",
    "  stencil parse templates/page.stn",
    "  stencil deps templates tag/card.stn"]

def versionText : String := "0.1.0-alpha.1"

/-- What a run of the program amounts to. -/
structure Outcome where
  code : Nat := 0
  stdout : String := ""
  stderr : String := ""
  /-- All files afterwards. -/
  tree : Files.Tree

/-- Where the program runs. -/
structure Setting where
  tree : Files.Tree
  /-- Where paths start. -/
  here : Files.Place

namespace Setting

def succeed (w : Setting) (stdout : String) : Outcome :=
  { stdout, tree := w.tree }

def fail (w : Setting) (stderr : String) : Outcome :=
  { code := 1, stderr, tree := w.tree }

/-- A session over the templates below a directory. -/
def session (w : Setting) (root : String) (c : Configuration) : Session Directory :=
  { configuration := c, library := { tree := w.tree, here := w.here, root } }

/-- Report a failure, with snippets from the templates of the session. -/
def failWith (w : Setting) (s : Session Directory) (f : Failure) : Outcome :=
  let (report, _) := (Report.write Session.source f).run s
  w.fail report

def generate (w : Setting) (root : String) (c : Configuration) : Outcome :=
  let (answer, s, tree) := (Session.precompileAll w.here).run (w.session root c, w.tree)
  let w := { w with tree }
  match answer with
  | .error failure => w.failWith s failure
  | .ok batch =>
      w.succeed (lines ["Generated " ++ toString batch.length ++ " unit(s) from " ++ root ++
        " into " ++ c.output])

def check (w : Setting) (root : String) (c : Configuration) : Outcome :=
  let (answer, s) := Session.generateAll.run (w.session root c)
  match answer with
  | .error failure => w.failWith s failure
  | .ok batch =>
      match batch.target with
      | .error failure => w.failWith s failure
      | .ok _ => w.succeed (lines ["OK: " ++ root ++ " (" ++ toString batch.length ++ " unit(s))"])

def dependents (w : Setting) (root name : String) : Outcome :=
  let (answer, s) := Session.generateAll.run (w.session root {})
  match answer with
  | .error failure => w.failWith s failure
  | .ok _ => w.succeed (lines ((s.templatesUsing ⟨name⟩).map Name.text))

/-- The kind of a template at a path, which the innermost directory named for a
kind decides. -/
def kindAt (path : String) : Kind :=
  (((Files.names path).filter fun n => !Files.isStill n).dropLast).foldl
    (fun kind n =>
      if n ++ "/" = Name.tagDirectory then .tag
      else if n ++ "/" = Name.layoutDirectory then .layout
      else kind)
    .page

/-- The text of a file. -/
def textOf (w : Setting) (path : String) : Except Files.Fault (List Char) := do
  match Text.ofBytes? (← w.tree.file w.here path).content with
  | some text => return text
  | none => .error .notText

def parse (w : Setting) (path : String) : Outcome :=
  match w.textOf path with
  | .error fault => w.fail (lines ["error: failed to read " ++ path ++ ": " ++ fault.message])
  | .ok source =>
      let signals := Scan.signals { kind := kindAt path } source
      let problems := signals.filterMap Scan.Signal.problem?
      { code := if problems.isEmpty then 0 else 1
        stdout := lines ((signals.filterMap Scan.Signal.event?).map Event.describe)
        stderr := lines (problems.map fun p => path ++ ": " ++ p.diagnostic.shown)
        tree := w.tree }

end Setting

/-- Carry out a command. -/
def run (w : Setting) : Command → Outcome
  | help => w.succeed usage
  | version => w.succeed (lines ["stencil " ++ versionText])
  | generate root options => w.generate root options.configuration
  | check root options => w.check root options.configuration
  | parse path => w.parse path
  | dependents root name => w.dependents root name

/-- Say why there is no command to carry out. -/
def refuse (w : Setting) : Fault → Outcome
  | .unknown word =>
      { w.fail (lines ["Unknown command: " ++ word, ""]) with stdout := usage }
  | .incomplete usage => w.fail (lines usage)
  | .options fault =>
      w.fail (lines ["error: " ++ fault.message, "Run `stencil help` for the list of options."])

/-- The whole program. -/
def execute (w : Setting) (arguments : List String) : Outcome :=
  match ofArguments arguments with
  | .ok command => run w command
  | .error fault => refuse w fault

end Command

end Templating
