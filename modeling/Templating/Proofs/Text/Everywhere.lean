import Mathlib.Data.List.Basic

/-!
# Places in a list

What is said of every place in a list, given what comes before it, is said of a list
that has grown at one of its ends by saying it of the new place.
-/

namespace Templating

variable {α : Type} {xs before after : List α} {x y : α}

/-- A place in a list is its last one, or it is a place in what comes before that. -/
theorem snoc_eq_append_cons (h : xs ++ [x] = before ++ y :: after) :
    (xs = before ∧ x = y ∧ after = []) ∨
      ∃ rest, after = rest ++ [x] ∧ xs = before ++ y :: rest := by
  rcases List.eq_nil_or_concat after with rfl | ⟨rest, z, rfl⟩
  · obtain ⟨hxs, hx⟩ := List.append_inj' h rfl
    exact Or.inl ⟨hxs, List.singleton_inj.mp hx, rfl⟩
  · rw [List.concat_eq_append, ← List.cons_append, ← List.append_assoc] at h
    obtain ⟨hxs, hx⟩ := List.append_inj' h rfl
    exact Or.inr ⟨rest, by rw [List.concat_eq_append, hx], hxs⟩

/-- `P` holds of every element between what is before it and what is after it. -/
def Everywhere (P : List α → α → List α → Prop) (xs : List α) : Prop :=
  ∀ before x after, xs = before ++ x :: after → P before x after

variable {P : List α → α → List α → Prop}

theorem everywhere_nil (P : List α → α → List α → Prop) : Everywhere P [] := by
  intro before x after h
  cases before <;> cases h

theorem everywhere_cons : Everywhere P (x :: xs) ↔
    P [] x xs ∧ Everywhere (fun before y after => P (x :: before) y after) xs := by
  constructor
  · intro h
    exact ⟨h [] x xs rfl, fun before y after hxs => h (x :: before) y after (by rw [hxs]; rfl)⟩
  · rintro ⟨hfirst, hrest⟩ before y after hsplit
    cases before with
    | nil =>
        cases hsplit
        exact hfirst
    | cons z before =>
        obtain ⟨rfl, htail⟩ := List.cons.inj hsplit
        exact hrest before y after htail

theorem everywhere_snoc : Everywhere P (xs ++ [x]) ↔
    Everywhere (fun before y after => P before y (after ++ [x])) xs ∧ P xs x [] := by
  constructor
  · intro h
    refine ⟨?_, h xs x [] rfl⟩
    rintro before y after rfl
    exact h before y (after ++ [x]) (by simp)
  · rintro ⟨h, hx⟩ before y after hsplit
    rcases snoc_eq_append_cons hsplit with ⟨rfl, rfl, rfl⟩ | ⟨rest, rfl, hxs⟩
    · exact hx
    · exact h before y rest hxs

theorem everywhere_iff_take :
    Everywhere P xs ↔ ∀ i : Fin xs.length, P (xs.take i) xs[i] (xs.drop (i + 1)) := by
  constructor
  · intro h i
    exact h _ _ _ (by simp)
  · rintro h before x after rfl
    simpa using h ⟨before.length, by simp⟩

instance [∀ xs x ys, Decidable (P xs x ys)] : Decidable (Everywhere P xs) :=
  decidable_of_iff _ everywhere_iff_take.symm

end Templating
