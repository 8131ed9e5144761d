import Mathlib.Data.List.Basic
import Templating.Text.Lines

/-!
# Texts and their lines

A text is unbroken if it has no newline. Ended with a newline, a text has one
line more than it has newlines of its own, and what follows is lines apart.
-/

namespace Templating.Text

/-! ## Unbroken text -/

/-- There is no newline in the text. -/
def Unbroken (text : String) : Prop :=
  '\n' ∉ text.toList

instance (text : String) : Decidable (Unbroken text) :=
  inferInstanceAs (Decidable (¬ _))

@[simp] theorem unbroken_append {s t : String} :
    Unbroken (s ++ t) ↔ Unbroken s ∧ Unbroken t := by
  simp [Unbroken]

theorem unbroken_ofList {cs : List Char} : Unbroken (String.ofList cs) ↔ '\n' ∉ cs := by
  simp [Unbroken]

theorem unbroken_intercalate {sep : String} (hsep : Unbroken sep) {texts : List String} :
    Unbroken (String.intercalate sep texts) ↔ ∀ text ∈ texts, Unbroken text := by
  induction texts with
  | nil => simp [Unbroken]
  | cons text texts ih =>
      cases texts with
      | nil => simp
      | cons next rest =>
          rw [String.intercalate_cons_cons, unbroken_append, unbroken_append, ih,
            and_iff_left hsep, ← List.forall_mem_cons]

theorem unbroken_repr (n : Nat) : Unbroken n.repr := by
  intro h
  rw [Nat.toList_repr] at h
  exact absurd (Nat.isDigit_of_mem_toDigits (by decide) (by decide) h) (by decide)

/-! ## Lines of a longer text -/

theorem lines_append_newline (xs ys : List Char) :
    lines (xs ++ '\n' :: ys) = lines (xs ++ ['\n']) ++ lines ys := by
  induction xs with
  | nil => rfl
  | cons c xs ih =>
      rw [List.cons_append, List.cons_append, lines, lines]
      split
      · rw [ih]
        rfl
      · rw [ih]
        cases h : lines (xs ++ ['\n']) with
        | nil =>
            have := flatten_lines (xs ++ ['\n'])
            rw [h] at this
            exact absurd this (by simp)
        | cons l ls => rfl

theorem length_lines_newline (xs : List Char) :
    (lines (xs ++ ['\n'])).length = xs.count '\n' + 1 := by
  induction xs with
  | nil => rfl
  | cons c xs ih =>
      rw [List.cons_append, lines, List.count_cons]
      split
      · rename_i hc
        simp [ih, hc]
      · rename_i hc
        rw [if_neg (by simpa using hc), Nat.add_zero]
        cases h : lines (xs ++ ['\n']) with
        | nil => simp [h] at ih
        | cons l ls => simpa [h] using ih

end Templating.Text
