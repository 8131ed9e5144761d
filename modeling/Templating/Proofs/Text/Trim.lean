import Mathlib.Data.List.TakeWhile
import Templating.Text.Slice

/-!
# Trimmed text

Trimming takes nothing but blanks away, so what is left was there before, and
a text that is trimmed already is found again behind blanks.
-/

namespace Templating.Text

theorem mem_of_mem_trim {c : Char} {cs : List Char} (h : c ∈ trim cs) : c ∈ cs := by
  obtain ⟨back, hback⟩ := Slice.trimEnd_isPrefix (trimStart cs)
  have hstart : c ∈ trimStart cs := by
    rw [hback]
    exact List.mem_append_left _ h
  exact (List.dropWhile_suffix _).subset hstart

/-- A text stands between blanks once it is trimmed. -/
theorem exists_trim (cs : List Char) : ∃ front back, cs = front ++ trim cs ++ back ∧
    (∀ c ∈ front, isBlank c = true) ∧ ∀ c ∈ back, isBlank c = true := by
  have hend (xs : List Char) : xs = trimEnd xs ++ (xs.reverse.takeWhile isBlank).reverse := by
    unfold trimEnd trimStart
    rw [← List.reverse_append, List.takeWhile_append_dropWhile, List.reverse_reverse]
  refine ⟨cs.takeWhile isBlank, ((trimStart cs).reverse.takeWhile isBlank).reverse, ?_, ?_, ?_⟩
  · rw [List.append_assoc, trim, ← hend, trimStart, List.takeWhile_append_dropWhile]
  · exact fun c hc => List.all_eq_true.mp List.all_takeWhile c hc
  · exact fun c hc => List.all_eq_true.mp List.all_takeWhile c (List.mem_reverse.mp hc)

/-- What is not blank is not trimmed away. -/
theorem mem_trim {c : Char} {cs : List Char} (h : c ∈ cs) (hc : isBlank c = false) :
    c ∈ trim cs := by
  have hstart (cs : List Char) (h : c ∈ cs) : c ∈ trimStart cs := by
    rw [← List.takeWhile_append_dropWhile (p := isBlank) (l := cs)] at h
    rcases List.mem_append.mp h with h | h
    · have hblank := List.all_takeWhile (p := isBlank) (l := cs)
      rw [List.all_eq_true.mp hblank c h] at hc
      cases hc
    · exact h
  unfold trim trimEnd
  exact List.mem_reverse.mpr (hstart _ (List.mem_reverse.mpr (hstart cs h)))

/-- Only blanks are trimmed away as a whole. -/
theorem trim_eq_nil_iff {cs : List Char} : trim cs = [] ↔ ∀ c ∈ cs, isBlank c = true := by
  constructor
  · intro h c hc
    by_contra hblank
    have hmem := mem_trim hc (by simpa using hblank)
    rw [h] at hmem
    exact absurd hmem (by simp)
  · intro h
    by_contra hne
    have hlast := getLast?_trim cs _ (List.getLast?_eq_some_getLast hne)
    rw [h _ (mem_of_mem_trim (List.getLast_mem hne))] at hlast
    cases hlast

theorem head?_trim {cs : List Char} {c : Char} (h : (trim cs).head? = some c) :
    isBlank c = false := by
  obtain ⟨back, hback⟩ := Slice.trimEnd_isPrefix (trimStart cs)
  refine head?_trimStart cs c ?_
  rw [hback, ← trim]
  cases hcs : trim cs with
  | nil =>
      rw [hcs] at h
      cases h
  | cons d ds =>
      rw [hcs] at h
      exact h

/-- Blanks before a text do not show when it is trimmed. -/
theorem trim_blank_append {gap : List Char} (hgap : ∀ c ∈ gap, isBlank c = true)
    (cs : List Char) : trim (gap ++ cs) = trim cs := by
  rw [trim, trimStart, List.dropWhile_append_of_pos hgap]
  rfl

/-- Blanks behind a text do not show when it is trimmed. -/
theorem trim_append_blank (cs : List Char) {gap : List Char}
    (hgap : ∀ c ∈ gap, isBlank c = true) : trim (cs ++ gap) = trim cs := by
  have hend (xs : List Char) : trimEnd (xs ++ gap) = trimEnd xs := by
    unfold trimEnd trimStart
    rw [List.reverse_append, List.dropWhile_append_of_pos]
    exact fun c hc => hgap c (List.mem_reverse.mp hc)
  unfold trim trimStart
  rw [List.dropWhile_append]
  split
  · -- All of the text is blank.
    rename_i hcs
    rw [List.isEmpty_iff.mp hcs, List.dropWhile_eq_nil_iff.mpr hgap]
  · exact hend _

/-- There is nothing to trim from a text without blanks. -/
theorem trim_of_solid {cs : List Char} (h : ∀ c ∈ cs, isBlank c = false) : trim cs = cs := by
  have hstart (xs : List Char) (hxs : ∀ c ∈ xs, isBlank c = false) : trimStart xs = xs := by
    cases xs with
    | nil => rfl
    | cons x xs => exact List.dropWhile_cons_of_neg (by simp [hxs x])
  unfold trim trimEnd
  rw [hstart cs h, hstart, List.reverse_reverse]
  exact fun c hc => h c (List.mem_reverse.mp hc)

theorem trim_toList {s : String} (h : trimmed s = s) : trim s.toList = s.toList := by
  have hchars := congrArg String.toList h
  rwa [trimmed, String.toList_ofList] at hchars

theorem trimStart_of_trimmed {cs : List Char} (h : trim cs = cs) :
    trimStart cs = cs := by
  have hsuffix : trimStart cs <:+ cs := List.dropWhile_suffix _
  obtain ⟨back, hback⟩ := Slice.trimEnd_isPrefix (trimStart cs)
  have hlength := congrArg List.length hback
  rw [← trim, h, List.length_append] at hlength
  exact hsuffix.eq_of_length (Nat.le_antisymm hsuffix.length_le (by omega))

/-- Trimming a slice takes the blanks before a trimmed text away. -/
theorem trim_slice (n : Nat) (gap : List Char) {cs : List Char}
    (hgap : ∀ c ∈ gap, isBlank c = true) (hcs : trim cs = cs) :
    Slice.trim ⟨n, String.ofList (gap ++ cs)⟩ =
      ⟨n + byteSize gap, String.ofList cs⟩ := by
  have hstart := trimStart_of_trimmed hcs
  have htake : cs.takeWhile isBlank = [] := by
    have happend := List.takeWhile_append_dropWhile (p := isBlank) (l := cs)
    rw [← trimStart, hstart] at happend
    exact List.append_left_eq_self.mp happend
  have hdrop : trimStart (gap ++ cs) = cs := by
    rw [trimStart, List.dropWhile_append_of_pos hgap]
    exact hstart
  rw [Slice.trim]
  simp only [String.toList_ofList]
  rw [List.takeWhile_append_of_pos hgap, htake, List.append_nil, trim, hdrop,
    ← hstart, ← trim, hstart, hcs]

end Templating.Text
