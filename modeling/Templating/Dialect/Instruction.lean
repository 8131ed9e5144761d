import Templating.Binding
import Templating.Event
import Templating.SourceUnit.Address
import Templating.SourceUnit.Draft

/-!
# Instructions

What a generated unit does, before it is spelled in a target language. The
body of a unit is a list of instructions, and each says one thing: write this
text, call that unit, go on only if a condition holds. The header has what the
frame around the body depends on.
-/

namespace Templating.Dialect

inductive Instruction where
  /-- Write static text. -/
  | text (piece : String)
  /-- Write the bytes from `start` to `stop` of the unit's binary. -/
  | binary (start stop : Nat)
  /-- Write the value of an expression. -/
  | value (escaping : Escaping) (code : String)
  | statement (code : String)
  | conditionBegin (condition : String)
  | conditionElseIf (condition : String)
  | conditionElse
  | loopBegin (header : String)
  /-- The end of a condition or a loop. -/
  | blockEnd
  | tagCall (callee : Address) (arguments : List String)
  /-- Call a layout; up to `layoutEnd` its slots are given content. -/
  | layoutBegin (callee : Address) (arguments : List String)
  /-- The end of a layout call. Slots that were given nothing are looked up in
  the caller's own slots if `forward` is set, and are empty otherwise. -/
  | layoutEnd (forward : Bool)
  | slotBegin (slot : String)
  | slotEnd
  /-- Write the content that the caller gives to a slot. -/
  | render (slot : String)
deriving DecidableEq

/-- What the frame around the body of a unit depends on. -/
structure Header where
  address : Address
  kind : Kind
  imports : List String := []
  params : List Param := []
  hasBinary : Bool := false

/-- How one target spells a unit. Lines are relative to the level they are
written at. -/
structure Spelling where
  /-- One level of indentation. -/
  indent : String
  /-- Everything up to the body. -/
  prologue : Header → List Line
  /-- What closes the prologue. -/
  epilogue : List Line
  instruction : Instruction → List Line
  /-- What is passed for one parameter. -/
  argument : Bound → String

/-- An import as it is written in a template, without blanks around it and
semicolons after it. -/
def importPath (text : String) : String :=
  String.ofList ((Text.trim text.toList).reverse.dropWhile (· == ';')).reverse

end Templating.Dialect
