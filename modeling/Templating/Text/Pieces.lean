/-!
# Cutting text at a separator

`pieces` cuts at every separator, `splitLast` at the last one. Both lose
nothing: putting the separators back gives the text again.
-/

namespace Templating.Text

/-- The stretches between separators; always at least one. -/
def pieces (sep : Char) : List Char → List (List Char)
  | [] => [[]]
  | c :: cs =>
      if c = sep then [] :: pieces sep cs
      else match pieces sep cs with
        | [] => [[c]]
        | p :: ps => (c :: p) :: ps

theorem pieces_ne_nil (sep : Char) (cs : List Char) : pieces sep cs ≠ [] := by
  cases cs with
  | nil => simp [pieces]
  | cons c cs =>
      unfold pieces
      split
      · simp
      · split <;> simp

/-- Joining the pieces with their separator gives the text back. -/
theorem intercalate_pieces (sep : Char) (cs : List Char) :
    [sep].intercalate (pieces sep cs) = cs := by
  induction cs with
  | nil => simp [pieces, List.intercalate]
  | cons c cs ih =>
      unfold pieces
      split
      · rename_i h
        cases hp : pieces sep cs with
        | nil => exact absurd hp (pieces_ne_nil sep cs)
        | cons p ps =>
            rw [hp] at ih
            simp [List.intercalate] at ih ⊢
            exact ⟨h.symm, ih⟩
      · split
        · rename_i hp
          exact absurd hp (pieces_ne_nil sep cs)
        · rename_i p ps hp
          rw [hp] at ih
          cases ps with
          | nil => simp [List.intercalate] at ih ⊢; exact ih
          | cons q qs => simp [List.intercalate] at ih ⊢; exact ih

/-- What stands before and after the last separator, if there is one. -/
def splitLast (sep : Char) : List Char → Option (List Char × List Char)
  | [] => none
  | c :: cs =>
      match splitLast sep cs with
      | some (front, back) => some (c :: front, back)
      | none => if c = sep then some ([], cs) else none

theorem splitLast_eq_none_iff (sep : Char) (cs : List Char) :
    splitLast sep cs = none ↔ sep ∉ cs := by
  induction cs with
  | nil => simp [splitLast]
  | cons c cs ih =>
      unfold splitLast
      split
      · rename_i h
        have : sep ∈ cs := by
          refine Decidable.byContradiction fun hn => ?_
          rw [ih.2 hn] at h
          simp at h
        simp [this]
      · rename_i h
        have := ih.1 h
        split
        · rename_i hc; simp [hc]
        · rename_i hc; simp [this, Ne.symm hc]

theorem eq_of_splitLast {sep : Char} {cs front back : List Char}
    (h : splitLast sep cs = some (front, back)) :
    cs = front ++ sep :: back ∧ sep ∉ back := by
  induction cs generalizing front with
  | nil => simp [splitLast] at h
  | cons c cs ih =>
      unfold splitLast at h
      split at h
      · rename_i f b hs
        simp only [Option.some.injEq, Prod.mk.injEq] at h
        obtain ⟨rfl, rfl⟩ := h
        obtain ⟨h₁, h₂⟩ := ih hs
        exact ⟨by rw [h₁]; rfl, h₂⟩
      · rename_i hs
        split at h
        · rename_i hc
          simp only [Option.some.injEq, Prod.mk.injEq] at h
          obtain ⟨rfl, rfl⟩ := h
          exact ⟨by simp [hc], (splitLast_eq_none_iff sep cs).1 hs⟩
        · simp at h

end Templating.Text
