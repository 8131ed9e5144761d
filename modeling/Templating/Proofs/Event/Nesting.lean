import Mathlib.Data.List.Induction
import Templating.Event

/-!
# Nesting of blocks in an event stream

Conditions, loops, layout calls and slots are blocks: an event opens them and
another one closes them. `openAfter` reads a stream with the list of the blocks
that are open, innermost first, and refuses an event that does not fit: a
branch or an end that does not belong to the innermost block, or belongs to it
at another depth, and a slot that does not stand directly in a layout call.

Forgetting all but the brackets leaves a word, and `WellBracketed` is the usual
notion for those. A stream that `openAfter` accepts is the beginning of a
well-bracketed word: closing what is open, from the inside out, completes it.
-/

namespace Templating.Event

/-- What opens and closes. -/
inductive Block where
  | condition
  | loop
  | layout
  | slot
deriving DecidableEq, Repr

/-- What an event does to the blocks around it. -/
inductive Role where
  | opens (block : Block)
  /-- Goes on with another branch of a condition. -/
  | branches
  | closes (block : Block)
  | neutral
deriving DecidableEq, Repr

def Body.role : Body → Role
  | .conditionBegin _ => .opens .condition
  | .loopBegin _ => .opens .loop
  | .call .layout .. => .opens .layout
  | .slotBegin _ => .opens .slot
  | .conditionElse | .conditionElseIf _ => .branches
  | .conditionEnd => .closes .condition
  | .loopEnd => .closes .loop
  | .layoutEnd => .closes .layout
  | .slotEnd => .closes .slot
  | _ => .neutral

/-- An open block, with the depth of the event that opened it. -/
structure Opening where
  block : Block
  depth : Nat
deriving DecidableEq, Repr

/-- The open blocks after one more event, innermost first, if it fits. -/
def follow (opened : List Opening) (e : Event) : Option (List Opening) :=
  match e.body.role with
  | .neutral => some opened
  | .opens block =>
      if block = .slot ∧ opened.head?.map Opening.block ≠ some .layout then none
      else some (⟨block, e.depth⟩ :: opened)
  | .branches => if opened.head? = some ⟨.condition, e.depth⟩ then some opened else none
  | .closes block =>
      if opened.head? = some ⟨block, e.depth⟩ then some opened.tail else none

/-- The open blocks after a stream that begins with none open, if all its
events fit. -/
def openAfter (es : List Event) : Option (List Opening) :=
  es.foldlM follow []

@[simp] theorem openAfter_nil : openAfter [] = some [] := rfl

theorem openAfter_append (es fs : List Event) :
    openAfter (es ++ fs) = (openAfter es).bind fun opened => fs.foldlM follow opened := by
  unfold openAfter
  rw [List.foldlM_append]
  rfl

theorem openAfter_snoc (es : List Event) (e : Event) :
    openAfter (es ++ [e]) = (openAfter es).bind fun opened => follow opened e := by
  rw [openAfter_append]
  simp

/-- The beginning of a stream that fits, fits. -/
theorem openAfter_of_prefix {es fs : List Event} {opened : List Opening} (h : es <+: fs)
    (hfs : openAfter fs = some opened) : ∃ before, openAfter es = some before := by
  obtain ⟨rest, rfl⟩ := h
  rw [openAfter_append] at hfs
  obtain ⟨before, hes, _⟩ := Option.bind_eq_some_iff.mp hfs
  exact ⟨before, hes⟩

/-! ## Words of brackets -/

inductive Bracket where
  | opening (block : Block)
  | closing (block : Block)
deriving DecidableEq, Repr

/-- Every bracket has its partner, of the same block. -/
inductive WellBracketed : List Bracket → Prop where
  | nil : WellBracketed []
  | wrap (block : Block) {inner rest : List Bracket} : WellBracketed inner →
      WellBracketed rest →
      WellBracketed (.opening block :: (inner ++ .closing block :: rest))

def bracket? (e : Event) : Option Bracket :=
  match e.body.role with
  | .opens block => some (.opening block)
  | .closes block => some (.closing block)
  | _ => none

/-- The word of brackets of a stream. -/
def brackets (es : List Event) : List Bracket :=
  es.filterMap bracket?

/-- The brackets that close open blocks, from the inside out. -/
def closings (opened : List Opening) : List Bracket :=
  opened.map fun o => .closing o.block

/-- An empty pair of brackets may be put anywhere in a well-bracketed word. -/
theorem WellBracketed.insert {w : List Bracket} (h : WellBracketed w) (block : Block) :
    ∀ u v, w = u ++ v → WellBracketed (u ++ .opening block :: .closing block :: v) := by
  induction h with
  | nil =>
      intro u v huv
      obtain ⟨rfl, rfl⟩ := List.append_eq_nil_iff.mp huv.symm
      exact .wrap block .nil .nil
  | @wrap b inner rest hinner hrest ihinner ihrest =>
      intro u v huv
      cases u with
      | nil =>
          rw [List.nil_append] at huv
          rw [← huv]
          exact .wrap block .nil (.wrap b hinner hrest)
      | cons x u =>
          rw [List.cons_append] at huv
          obtain ⟨rfl, hsplit⟩ := List.cons.inj huv
          -- The place is inside the first pair or behind it.
          rcases List.append_eq_append_iff.mp hsplit with ⟨m, rfl, hm⟩ | ⟨m, rfl, rfl⟩
          · cases m with
            | nil =>
                rw [List.nil_append] at hm
                subst hm
                have := WellBracketed.wrap b (ihinner inner [] (by simp)) hrest
                simpa using this
            | cons y m =>
                obtain ⟨rfl, rfl⟩ := List.cons.inj hm
                have := WellBracketed.wrap b hinner (ihrest m v rfl)
                simpa using this
          · have := WellBracketed.wrap b (ihinner u m rfl) hrest
            simpa using this

theorem brackets_snoc (es : List Event) (e : Event) :
    brackets (es ++ [e]) = brackets es ++ (bracket? e).toList := by
  unfold brackets
  rw [List.filterMap_append]
  cases h : bracket? e <;> simp [h]

/-- **A stream that fits begins a well-bracketed word.** Closing what it leaves
open completes the word. -/
theorem wellBracketed_of_openAfter {es : List Event} {opened : List Opening}
    (h : openAfter es = some opened) : WellBracketed (brackets es ++ closings opened) := by
  -- From the back, since the last event is the one that `follow` has just taken.
  induction es using List.reverseRecOn generalizing opened with
  | nil =>
      obtain rfl := Option.some.inj h
      exact .nil
  | append_singleton es e ih =>
      rw [openAfter_snoc] at h
      obtain ⟨before, hes, he⟩ := Option.bind_eq_some_iff.mp h
      have hw := ih hes
      rw [brackets_snoc]
      unfold follow at he
      unfold bracket?
      split at he
      · rename_i hrole
        obtain rfl := Option.some.inj he
        rw [hrole]
        simpa using hw
      · rename_i block hrole
        rw [hrole]
        split at he
        · exact absurd he (by simp)
        · -- The block opens in front of the brackets that close the others.
          obtain rfl := Option.some.inj he
          have := hw.insert block _ _ rfl
          simpa [closings] using this
      · rename_i hrole
        rw [hrole]
        split at he
        · obtain rfl := Option.some.inj he
          simpa using hw
        · exact absurd he (by simp)
      · rename_i block hrole
        rw [hrole]
        split at he
        · rename_i hhead
          obtain rfl := Option.some.inj he
          obtain ⟨rest, rfl⟩ := List.head?_eq_some_iff.mp hhead
          simpa [closings] using hw
        · exact absurd he (by simp)

end Templating.Event
