import Templating.Dialect.Instruction
import Templating.Literal.Escape

/-!
# Units spelled in Rust

A unit is a module with one function, which writes to the output it is given.
A layout takes its slots as one more parameter, a closure from the name of a
slot to its content.
-/

namespace Templating.Dialect.Rust

def output : String := "stencil_output"

def outputType : String := "&mut dyn ::stencil_runtime::TemplateOutput"

def slots : String := "stencil_slots"

def slotName : String := "stencil_slot"

def binaryName : String := "STENCIL_BINARY_PARTS"

def quote (text : String) : String :=
  Literal.quote .rust text

/-- The output, passed on without giving it away. -/
def reborrowed : String := "&mut *" ++ output

/-- The function that renders the unit. -/
def path (callee : Address) : String :=
  "crate::" ++ callee.qualified "::" ++ "::render"

/-- What stands in the parentheses of a call. -/
def passed (arguments : List String) : String :=
  String.intercalate ", " (reborrowed :: arguments)

def paramLine (p : Param) : Line :=
  ⟨2, p.name ++ ": " ++ (if p.variadic then "&[" ++ p.type ++ "]" else p.type) ++ ","⟩

def prologue (h : Header) : List Line :=
  [⟨0, "#[allow(non_snake_case, dead_code, unused_imports, unused_variables, unused_mut, unused_parens, clippy::all)]"⟩,
    ⟨0, "pub mod " ++ h.address.unitName ++ " \x7b"⟩] ++
  h.imports.map (fun i => ⟨1, "use " ++ importPath i ++ ";"⟩) ++
  [⟨1, "pub const TEMPLATE_NAME: &str = " ++ quote h.address.template.text ++ ";"⟩] ++
  (if h.hasBinary then
    [⟨1, "static " ++ binaryName ++ ": &[u8] = include_bytes!(" ++ quote h.address.binaryFile ++ ");"⟩]
  else []) ++
  [⟨0, ""⟩, ⟨1, "pub fn render("⟩, ⟨2, output ++ ": " ++ outputType ++ ","⟩] ++
  h.params.map paramLine ++
  (if h.kind = .layout then
    [⟨2, slots ++ ": &dyn Fn(&str, &mut dyn ::stencil_runtime::TemplateOutput),"⟩]
  else []) ++
  [⟨1, ") \x7b"⟩]

/-- A statement with the semicolon it needs. -/
def terminated (code : String) : String :=
  let code := Text.trim code.toList
  match code.getLast? with
  | some ';' | some '}' => String.ofList code
  | _ => String.ofList code ++ ";"

def instruction : Instruction → List Line
  | .text piece => [⟨0, output ++ ".write_raw(" ++ quote piece ++ ");"⟩]
  | .binary start stop =>
      [⟨0, output ++ ".write_raw_bytes(&" ++ binaryName ++ "[" ++ toString start ++ ".." ++
        toString stop ++ "]);"⟩]
  | .value escaping code =>
      let method := match escaping with
        | .escaped => ".write_escaped"
        | .raw => ".write_raw"
      [⟨0, output ++ method ++ "(&::std::string::ToString::to_string(&(" ++ code ++ ")));"⟩]
  | .statement code => [⟨0, terminated code⟩]
  | .conditionBegin condition => [⟨0, "if " ++ Text.trimmed condition ++ " \x7b"⟩]
  | .conditionElseIf condition => [⟨0, "\x7d else if " ++ Text.trimmed condition ++ " \x7b"⟩]
  | .conditionElse => [⟨0, "\x7d else \x7b"⟩]
  | .loopBegin header => [⟨0, "for " ++ Text.trimmed header ++ " \x7b"⟩]
  | .blockEnd => [⟨0, "\x7d"⟩]
  | .tagCall callee arguments => [⟨0, path callee ++ "(" ++ passed arguments ++ ");"⟩]
  | .layoutBegin callee arguments =>
      [⟨0, path callee ++ "(" ++ passed arguments ++ ", &|" ++ slotName ++ ": &str, " ++ output ++
        ": " ++ outputType ++ "| \x7b"⟩]
  | .layoutEnd forward =>
      (if forward then [⟨1, slots ++ "(" ++ slotName ++ ", " ++ reborrowed ++ ");"⟩] else []) ++
      [⟨0, "\x7d);"⟩]
  | .slotBegin slot =>
      [⟨1, "if " ++ slotName ++ " == " ++ quote slot ++ " \x7b"⟩, ⟨2, "\x7b"⟩]
  | .slotEnd => [⟨2, "\x7d"⟩, ⟨2, "return;"⟩, ⟨1, "\x7d"⟩]
  | .render slot => [⟨0, slots ++ "(" ++ quote slot ++ ", " ++ reborrowed ++ ");"⟩]

def argument : Bound → String
  | .single value => value
  | .variadic values => "&[" ++ String.intercalate ", " values ++ "]"

def spelling : Spelling where
  indent := "    "
  prologue := prologue
  epilogue := [⟨1, "\x7d"⟩, ⟨0, "\x7d"⟩]
  instruction := instruction
  argument := argument

end Templating.Dialect.Rust
