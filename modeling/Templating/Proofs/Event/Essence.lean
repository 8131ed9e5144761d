import Templating.Event

/-!
# The essence of a template

Some events only tell where a line or the header ends, or what goes on in the
markup around the template. Without them, and without lines, a stream of events
says what the template does. Text that is handed out in several runs, one after the
other, is one piece of it.
-/

namespace Templating

/-- The event says nothing about what the template does. -/
def Event.Body.isIncidental : Event.Body → Bool
  | .elementOpened _ | .elementClosed _ | .attributeBegun .. | .lineEnd | .headerEnd => true
  | _ => false

/-- An event without its line. -/
structure Piece where
  depth : Nat
  body : Event.Body
deriving DecidableEq

namespace Piece

/-- See a run of text behind what has been seen before, which comes last piece first.
The run goes on with text of the same depth. -/
def seeText (seen : List Piece) (depth : Nat) (run : Text.Slice) : List Piece :=
  match seen with
  | ⟨d, .text earlier⟩ :: before =>
      if d = depth then ⟨d, .text ⟨earlier.start, earlier.text ++ run.text⟩⟩ :: before
      else ⟨depth, .text run⟩ :: seen
  | _ => ⟨depth, .text run⟩ :: seen

/-- See an event. -/
def see (seen : List Piece) (depth : Nat) : Event.Body → List Piece
  | .text run => seeText seen depth run
  | body => if body.isIncidental then seen else ⟨depth, body⟩ :: seen

/-- All that is seen of the events, last piece first, behind what has been seen
before. -/
def seeAll (seen : List Piece) (es : List Event) : List Piece :=
  es.foldl (fun seen e => see seen e.depth e.body) seen

theorem seeAll_append (seen : List Piece) (es fs : List Event) :
    seeAll seen (es ++ fs) = seeAll (seeAll seen es) fs :=
  List.foldl_append

theorem see_incidental (seen : List Piece) (depth : Nat) {body : Event.Body}
    (h : body.isIncidental = true) : see seen depth body = seen := by
  cases body <;> first | rfl | exact absurd h (by simp [Event.Body.isIncidental])

/-- **Text that is handed out in two runs is seen as one.** -/
theorem seeText_seeText (seen : List Piece) (depth : Nat) (earlier later : Text.Slice) :
    seeText (seeText seen depth earlier) depth later =
      seeText seen depth ⟨earlier.start, earlier.text ++ later.text⟩ := by
  have hnew (seen : List Piece) : seeText (⟨depth, .text earlier⟩ :: seen) depth later =
      ⟨depth, .text ⟨earlier.start, earlier.text ++ later.text⟩⟩ :: seen :=
    if_pos rfl
  cases seen with
  | nil => exact hnew []
  | cons piece before =>
      obtain ⟨d, body⟩ := piece
      cases body with
      | text first =>
          by_cases hd : d = depth
          · simp [seeText, hd, String.append_assoc]
          · simp [seeText, hd]
      | _ => exact hnew _

end Piece

/-- What the events say about what the template does. -/
def essence (es : List Event) : List Piece :=
  (Piece.seeAll [] es).reverse

end Templating
