import Templating.Dialect
import Templating.Linker
import Templating.Literal.Split
import Templating.Scan
import Templating.SourceUnit

/-!
# Generating a unit

The signals of a template are turned into the instructions of a unit, one
signal after the other. After the first call that fails nothing more is
generated, but problems are still collected: a template with problems fails
with all of them, and only otherwise with its failed call.
-/

namespace Templating.Generation

/-- What generation depends on beside the template. -/
structure Setting where
  interest? : Option Markup.Interest := none
  /-- Text longer than this many bytes goes to the binary. -/
  binaryThreshold? : Option Nat := none
  /-- Longer literals are split. -/
  maxLiteral : Nat := 8192
deriving DecidableEq, Repr

/-- The text belongs in the binary. -/
def Setting.isLong (setting : Setting) (text : String) : Bool :=
  match setting.binaryThreshold? with
  | some threshold => decide (threshold < Text.byteSize text.toList)
  | none => false

/-- An instruction with the template line it comes from and its level. -/
structure Placed where
  templateLine : Nat
  level : Nat
  instruction : Dialect.Instruction

/-- How far a unit has been generated. -/
structure Progress where
  address : Address
  kind : Kind
  imports : Array String := #[]
  params : Array Param := #[]
  body : Array Placed := #[]
  binaryParts : Array (List UInt8) := #[]
  binaryLength : Nat := 0
  /-- The template line that instructions now come from. -/
  templateLine : Nat := 1
  diagnostics : Array Diagnostic := #[]
  /-- The failure of the first call that failed. -/
  failure? : Option Failure := none

namespace Progress

def add (p : Progress) (level : Nat) (i : Dialect.Instruction) : Progress :=
  { p with body := p.body.push ⟨p.templateLine, level, i⟩ }

/-- Write static text as the next part of the binary. -/
def addBinary (p : Progress) (level : Nat) (text : String) : Progress :=
  let stop := p.binaryLength + Text.byteSize text.toList
  let p := p.add level (.binary p.binaryLength stop)
  { p with
    binaryParts := p.binaryParts.push (Text.toBytes text.toList)
    binaryLength := stop }

/-- Write static text in literals. -/
def addLiterals (p : Progress) (setting : Setting) (level : Nat) (text : String) : Progress :=
  (Literal.split setting.maxLiteral text).foldl (fun p piece => p.add level (.text piece)) p

/-- Write static text: in the binary if it is long enough for that, and in
literals otherwise. -/
def addText (p : Progress) (setting : Setting) (level : Nat) (text : String) : Progress :=
  if setting.isLong text then p.addBinary level text else p.addLiterals setting level text

def addDiagnostic (p : Progress) (d : Diagnostic) : Progress :=
  { p with diagnostics := p.diagnostics.push (d.inTemplate p.address.template) }

/-- A parameter without a type cannot be spelled. -/
def untyped (line : Nat) (param : Param) : Diagnostic :=
  ⟨.untypedParam, none, line, "parameter `" ++ param.name ++ "` needs a type"⟩

def addParam (p : Progress) (line : Nat) (param : Param) : Progress :=
  let p := { p with params := p.params.push param }
  if (Text.trim param.type.toList).isEmpty then p.addDiagnostic (untyped line param) else p

def fail (p : Progress) (f : Failure) : Progress :=
  { p with failure? := some f }

/-- A call, once the linker has answered. -/
def addCall (p : Progress) (level line : Nat) (kind : CallKind) (name : Name)
    (arguments : List Text.Slice) : Except Failure Callee → Progress
  | .error failure => p.fail failure
  | .ok callee =>
      match Binding.bind callee.params (arguments.map fun a => Argument.classify a.text) with
      | .error problem => p.fail (.unbound ⟨p.address.template, line⟩ name problem)
      | .ok bound =>
          let values := bound.map (Dialect.spelling p.address.target).argument
          p.add level (match kind with
            | .tag => .tagCall callee.address values
            | .layout => .layoutBegin callee.address values)

/-- The instruction that an event calls for by itself, if it is one that
neither writes static text nor needs the linker. -/
def instruction? (kind : Kind) : Event.Body → Option Dialect.Instruction
  | .expression escaping code => some (.value escaping (Text.trimmed code.text))
  | .statement code => some (.statement code.text)
  | .conditionBegin condition => some (.conditionBegin condition.text)
  | .conditionElseIf condition => some (.conditionElseIf condition.text)
  | .conditionElse => some .conditionElse
  | .conditionEnd | .loopEnd => some .blockEnd
  | .loopBegin header => some (.loopBegin header.text)
  | .slotBegin slot => some (.slotBegin slot.text)
  | .slotEnd => some .slotEnd
  | .layoutEnd => some (.layoutEnd (kind == .layout))
  | .render slot => some (.render slot.text)
  | _ => none

/-- The place in the markup that an event is about. -/
def interception? : Event.Body → Option Interception
  | .elementOpened e => some (.opened e.name e.attributes)
  | .attributeBegun e a => some (.begun e.name a.name e.attributes)
  | .elementClosed e => some (.closed e.name)
  | _ => none

/-- Take an event, unless a call has failed before. -/
def takeEvent {σ : Type} (setting : Setting) (linker : Linker σ) (p : Progress) (e : Event) :
    StateM σ Progress := do
  if p.failure?.isSome then return p
  let level := e.depth + Dialect.bodyLevel
  match e.body with
  | .lineEnd => return { p with templateLine := e.line + 1 }
  | .imported path => return { p with imports := p.imports.push (Text.trimmed path.text) }
  | .param _ param => return p.addParam e.line param
  | .headerEnd =>
      linker.declare p.address.template p.params.toList
      return p
  | .text run => return p.addText setting level run.text
  | .call kind reference arguments =>
      let name := p.address.template.ofCall kind reference
      let answer ← linker.resolve ⟨p.address.template, e.line, kind, name⟩
      return p.addCall level e.line kind name arguments answer
  | body =>
      match interception? body with
      | some place => return p.addText setting level (← linker.intercept place)
      | none =>
          match instruction? p.kind body with
          | some i => return p.add level i
          | none => return p

def take {σ : Type} (setting : Setting) (linker : Linker σ) (p : Progress) :
    Scan.Signal → StateM σ Progress
  | .event e => p.takeEvent setting linker e
  | .problem problem => return p.addDiagnostic problem.diagnostic

/-- The header that the finished unit has. -/
def header (p : Progress) : Dialect.Header where
  address := p.address
  kind := p.kind
  imports := p.imports.toList
  params := p.params.toList
  hasBinary := !p.binaryParts.isEmpty

/-- The finished unit as a draft: the prologue comes from the first line of the
template, each instruction from its own, the epilogue from the last. -/
def draft (p : Progress) : Draft :=
  let target := p.address.target
  let spelling := Dialect.spelling target
  let opening := (Dialect.draft target).writeLines (spelling.prologue p.header)
  let body := p.body.foldl
    (fun d i => Dialect.write target (d.setLine i.templateLine) i.level i.instruction) opening
  (body.setLine p.templateLine).writeLines spelling.epilogue

/-- The unit, if there were no problems and no call failed. -/
def finish (p : Progress) : Except Failure SourceUnit :=
  if p.diagnostics.isEmpty then
    match p.failure? with
    | some failure => .error failure
    | none =>
        let draft := p.draft
        .ok ⟨p.address, draft.code, draft.lineMap, p.binaryParts.toList⟩
  else .error (.unsound p.address.template p.diagnostics.toList)

end Progress

/-- Generate as far as the signals of a template go. -/
def progress {σ : Type} (setting : Setting) (linker : Linker σ) (address : Address) (kind : Kind)
    (source : String) : StateM σ Progress :=
  (Scan.signals ⟨kind, setting.interest?⟩ source.toList).foldlM
    (Progress.take setting linker) { address, kind }

/-- Generate the unit of a template. -/
def generate {σ : Type} (setting : Setting) (linker : Linker σ) (address : Address)
    (source : String) : StateM σ (Except Failure SourceUnit) := do
  return (← progress setting linker address address.kind source).finish

end Templating.Generation
