import Templating.Scan.State

/-!
# Directives in template text

What each directive does to the state once its last character has been read.
A directive hands out the text before it, begins or ends a construct, and says
so; one that is not allowed where it stands is reported and stays text.
-/

namespace Templating.Scan.State

/-- Only blanks are pending before the directive that was just read. -/
def onlyBlankBefore (s : State) (width : Nat) : Bool :=
  (Text.trim (s.pending.drop width)).isEmpty

/-- A declaration begins. Blanks between the declarations of the header are
dropped; anything else before it is template content. -/
def beginDeclaration (s : State) (width : Nat) (c : Construct) : State :=
  let s := if s.headerOver || !s.onlyBlankBefore width then s.flush width else s
  s.settle.push c

/-- A declaration ends, `width` characters before the current place. -/
def endDeclaration (s : State) (width : Nat) : State :=
  let text := (s.slice width).trim
  let isParam := s.top = .param
  let s := s.pop.settle
  if s.headerOver then
    s.report (.misplaced (if isParam then Directive.param.word else Directive.imported.word))
  else if isParam then
    match Param.ofDeclaration text.text with
    | .ok p => s.emit (.param text p)
    | .error fault => s.report (.declaration fault)
  else s.emit (.imported text)

/-- Hand out the text before a directive and begin a construct. -/
def begin (s : State) (width : Nat) (c : Construct) : State :=
  ((s.flush width).settle).push c

/-- `@else` ends one branch and begins the next. -/
def conditionElse (s : State) (width : Nat) : State :=
  if s.inTextOf Construct.isCondition then
    (((s.flush width).settle.pop).emit .conditionElse).push .text
  else s.reportUnbalanced .conditionElse Directive.conditionBegin.word

/-- `@elseif` ends a branch; a condition of its own follows. -/
def conditionElseIf (s : State) (width : Nat) : State :=
  if s.inTextOf Construct.isCondition then
    ((s.flush width).settle.pop.pop).push .conditionElseIf
  else s.reportUnbalanced .conditionElseIf Directive.conditionBegin.word

/-- `@endif` and `@endfor` end the text and the block it is in. -/
def endBlock (s : State) (closing : Directive) (opening : Directive)
    (sort : Construct → Bool) (body : Event.Body) : State :=
  if s.inTextOf sort then
    (((s.flush closing.width).settle.pop).emit body).pop
  else s.reportUnbalanced closing opening.word

/-- The reference of a call ends at its parenthesis. -/
def beginArguments (s : State) (kind : CallKind) : State :=
  let reference := (s.pending.drop 1).reverse.filter fun c => !Text.isBlank c
  let s := if reference.isEmpty then s.report (.namelessCall kind) else s
  s.settle.become (.arguments { kind, reference := String.ofList reference } 0)

def endLayout (s : State) : State :=
  if s.top = .layoutBody then s.pop.settle.emit .layoutEnd
  else s.reportUnbalanced .layoutEnd CallKind.layout.word

def beginSlot (s : State) : State :=
  if s.top = .layoutBody then s.settle.push .slot
  else s.report .slotOutsideCall

/-- The name of a slot ends and its content begins, two levels deeper than
other text. -/
def beginSlotText (s : State) : State :=
  let s := ((s.emit (.slotBegin (s.slice 1).trim)).settle).push .text
  { s with depth := s.depth + 2 }

def endSlot (s : State) (width : Nat) : State :=
  if s.inTextOf (· == .slot) then
    let s := (s.flush width).settle.pop.pop
    { s with depth := s.depth - 2 }.emit .slotEnd
  else s.reportUnbalanced .slotEnd Directive.slotBegin.word

/-- The name of a rendered slot ends. Only layouts have slots to render. -/
def endRender (s : State) (kind : Kind) : State :=
  let slot := (s.slice 1).trim
  let s := s.settle.pop
  if kind = .layout then s.emit (.render slot)
  else s.report (.renderOutsideLayout slot.text)

/-- A directive has been read. -/
def obey (s : State) (d : Directive) : State :=
  match d with
  | .comment => (s.flush d.width).push .comment
  | .imported => s.beginDeclaration d.width .imported
  | .param => s.beginDeclaration d.width .param
  | .expression escaping => s.begin d.width (.expression escaping)
  | .statement => s.begin d.width .statement
  | .conditionBegin => s.begin d.width .condition
  | .conditionElse => s.conditionElse d.width
  | .conditionElseIf => s.conditionElseIf d.width
  | .conditionEnd => s.endBlock d .conditionBegin Construct.isCondition .conditionEnd
  | .loopBegin => s.begin d.width .loop
  | .loopEnd => s.endBlock d .loopBegin (· == .loop) .loopEnd
  | .call kind => s.begin d.width (.reference kind)
  | .layoutEnd => s.endLayout
  | .slotBegin => s.beginSlot
  | .slotEnd => s.endSlot d.width
  | .render => s.begin d.width .render

/-- An opening parenthesis outside code. -/
def parenthesisBegins (s : State) : State :=
  match s.top with
  | .condition | .conditionElseIf => s.settle.push .parentheses
  | .loop => s.settle.push .loopHeader
  | .slot | .render => s.settle
  | _ => s

/-- A closing parenthesis outside code. -/
def parenthesisEnds (s : State) (kind : Kind) : State :=
  match s.top with
  | .slot => s.beginSlotText
  | .render => s.endRender kind
  | _ => s

end Templating.Scan.State
