import Templating.Text.Blank
import Templating.Text.Utf8

/-!
# Slices

A slice is a stretch of source text together with the byte offset at which
it starts. `Slice.At source s` says that the slice `s` really stands there
in `source`; trimming a slice keeps that.
-/

namespace Templating.Text

structure Slice where
  start : Nat
  text : String
deriving DecidableEq, Inhabited

namespace Slice

/-- The slice that ends at byte `stop` and whose characters, last one first,
are `cs`. -/
def endingAt (stop : Nat) (cs : List Char) : Slice :=
  ⟨stop - byteSize cs, String.ofList cs.reverse⟩

/-- The byte offset just past the slice. -/
def stop (s : Slice) : Nat :=
  s.start + byteSize s.text.toList

/-- The slice without the blanks around it. -/
def trim (s : Slice) : Slice :=
  let front := s.text.toList.takeWhile isBlank
  ⟨s.start + byteSize front, String.ofList (Text.trim s.text.toList)⟩

/-- The slice stands in the source where it says it does. -/
def At (source : List Char) (s : Slice) : Prop :=
  ∃ front back, source = front ++ s.text.toList ++ back ∧ s.start = byteSize front

theorem trimEnd_isPrefix (cs : List Char) : ∃ back, cs = trimEnd cs ++ back := by
  refine ⟨(cs.reverse.takeWhile isBlank).reverse, ?_⟩
  unfold trimEnd trimStart
  rw [← List.reverse_append, List.takeWhile_append_dropWhile, List.reverse_reverse]

theorem At.trim {source : List Char} {s : Slice} (h : s.At source) : s.trim.At source := by
  obtain ⟨front, back, hs, hst⟩ := h
  obtain ⟨rest, hr⟩ := trimEnd_isPrefix (trimStart s.text.toList)
  have hsplit : s.text.toList =
      s.text.toList.takeWhile isBlank ++ trimStart s.text.toList := by
    unfold trimStart
    rw [List.takeWhile_append_dropWhile]
  refine ⟨front ++ s.text.toList.takeWhile isBlank, rest ++ back, ?_, ?_⟩
  · simp only [Slice.trim, String.toList_ofList, Text.trim]
    conv => lhs; rw [hs, hsplit, hr]
    simp only [List.append_assoc]
  · simp [Slice.trim, hst]

end Slice

end Templating.Text
