import Templating.Markup.Element
import Templating.Name
import Templating.Param
import Templating.Text.Slice

/-!
# Events

Reading a template gives a flat stream of events: text, code, and the
beginnings and ends of blocks. Each event carries the line it was found on
and the depth of the blocks around it, so that the nesting can be recovered
from the stream alone. Whatever an event quotes from the source is a slice.
-/

namespace Templating

/-- Whether the value of an expression is escaped when it is written. -/
inductive Escaping where
  | escaped
  | raw
deriving DecidableEq, Repr

namespace Event

inductive Body where
  | text (run : Text.Slice)
  | expression (escaping : Escaping) (code : Text.Slice)
  | statement (code : Text.Slice)
  | imported (path : Text.Slice)
  /-- A parameter, with the declaration it was read from. -/
  | param (declaration : Text.Slice) (param : Param)
  | conditionBegin (condition : Text.Slice)
  | conditionElseIf (condition : Text.Slice)
  | conditionElse
  | conditionEnd
  | loopBegin (header : Text.Slice)
  | loopEnd
  /-- A call; one of a layout lasts until `layoutEnd`. -/
  | call (kind : CallKind) (reference : String) (arguments : List Text.Slice)
  | layoutEnd
  /-- Content for a slot of the layout that is called. -/
  | slotBegin (slot : Text.Slice)
  | slotEnd
  /-- The place in a layout where a slot's content goes. -/
  | render (slot : Text.Slice)
  | elementOpened (element : Markup.Element)
  | elementClosed (element : Markup.Element)
  | attributeBegun (element : Markup.Element) (begun : Markup.Attribute)
  | lineEnd
  /-- All declarations have been read. -/
  | headerEnd
  | complete
deriving DecidableEq

/-- The event belongs to the header of declarations. Any other event ends the
header. -/
def Body.isHeader : Body → Bool
  | .param .. | .imported _ | .lineEnd | .headerEnd => true
  | _ => false

/-- The stretches of source that the event quotes, in source order. -/
def Body.slices : Body → List Text.Slice
  | .text s | .expression _ s | .statement s | .imported s | .param s _
  | .conditionBegin s | .conditionElseIf s | .loopBegin s | .slotBegin s | .render s => [s]
  | .call _ _ arguments => arguments
  | _ => []

end Event

structure Event where
  line : Nat
  depth : Nat
  body : Event.Body
deriving DecidableEq

end Templating
