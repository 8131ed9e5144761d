import Templating.Failure
import Templating.Report.Snippet

/-!
# Reports

A failure is reported as a snippet for each line it is about, or in one line
if it is about none. The sources are looked up on demand, once a snippet, in a
library that may take note of it.
-/

namespace Templating.Report

/-- The snippet of a diagnostic that belongs to a template. -/
def ofDiagnostic? (d : Diagnostic) : Option Snippet :=
  d.template?.map fun template => ⟨d.code, template, d.line, d.message⟩

/-- The template lines a failure is about. -/
def snippets : Failure → List Snippet
  | .unsound _ diagnostics | .rejected diagnostics => diagnostics.filterMap ofDiagnostic?
  | .notFound name (some location) =>
      [⟨.notFound, location.template, location.line, name.text ++ " not found"⟩]
  | .unbound location callee (.missing param) =>
      [⟨.missingArgument, location.template, location.line,
        (Binding.Problem.missing param).message ++ " for " ++ callee.text⟩]
  | .unbound location callee problem =>
      [⟨problem.code, location.template, location.line,
        problem.message ++ " (calling " ++ callee.text ++ ")"⟩]
  | _ => []

/-- The diagnostics that belong to no template, a line each. -/
def loose (diagnostics : List Diagnostic) : String :=
  String.join ((diagnostics.filter fun d => d.template?.isNone).map
    fun d => "error: " ++ d.shown ++ "\n")

/-- Write snippets one after the other, looking up each source. -/
def writeSnippets {σ : Type} (source : Name → StateM σ (Option String)) :
    List Snippet → StateM σ String
  | [] => return ""
  | s :: rest => do
      let text := match ← source s.template with
        | some source => s.draw source
        | none => s.undrawn
      return text ++ (← writeSnippets source rest)

/-- The report of a failure. -/
def write {σ : Type} (source : Name → StateM σ (Option String)) (f : Failure) :
    StateM σ String := do
  match snippets f with
  | [] => return "error: " ++ f.message ++ "\n"
  | found => return loose f.diagnostics ++ (← writeSnippets source found)

end Templating.Report
