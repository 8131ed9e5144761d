import Mathlib.Data.List.Basic
import Templating.Text.Pieces

/-!
# Joining texts

Texts that are joined with a separator can be told apart again if none of them has
the first character of the separator in it. With a single character for a separator,
cutting gives back what was joined.
-/

namespace Templating.Text

/-- A character that two texts do not have ends both at the same place. -/
theorem append_cons_inj {c : Char} {x y u v : List Char} (hx : c ∉ x) (hy : c ∉ y)
    (h : x ++ c :: u = y ++ c :: v) : x = y ∧ u = v := by
  induction x generalizing y with
  | nil =>
      cases y with
      | nil => simpa using h
      | cons d y =>
          obtain ⟨rfl, -⟩ := List.cons.inj h
          exact absurd List.mem_cons_self hy
  | cons d x ih =>
      cases y with
      | nil =>
          obtain ⟨rfl, -⟩ := List.cons.inj h
          exact absurd List.mem_cons_self hx
      | cons d' y =>
          obtain ⟨rfl, hshorter⟩ := List.cons.inj h
          obtain ⟨rfl, hrest⟩ := ih (fun hmem => hx (List.mem_cons_of_mem _ hmem))
            (fun hmem => hy (List.mem_cons_of_mem _ hmem)) hshorter
          exact ⟨rfl, hrest⟩

/-- **Joining is injective** on texts without the first character of the separator. -/
theorem intercalate_injective {c : Char} {tail : List Char} {xs ys : List (List Char)}
    (hxs : ∀ x ∈ xs, c ∉ x) (hys : ∀ y ∈ ys, c ∉ y) (hx : xs ≠ []) (hy : ys ≠ [])
    (h : (c :: tail).intercalate xs = (c :: tail).intercalate ys) : xs = ys := by
  induction xs generalizing ys with
  | nil => exact absurd rfl hx
  | cons x xs ih =>
      obtain ⟨y, ys, rfl⟩ := List.exists_cons_of_ne_nil hy
      obtain ⟨hxfirst, hxrest⟩ := List.forall_mem_cons.mp hxs
      obtain ⟨hyfirst, hyrest⟩ := List.forall_mem_cons.mp hys
      -- A single text has no separator in it, and two or more have.
      cases xs with
      | nil =>
          cases ys with
          | nil => simpa using h
          | cons y' ys =>
              rw [List.intercalate_singleton, List.intercalate_cons_cons] at h
              exact absurd (by rw [h]; simp) hxfirst
      | cons x' xs =>
          cases ys with
          | nil =>
              rw [List.intercalate_singleton, List.intercalate_cons_cons] at h
              exact absurd (by rw [← h]; simp) hyfirst
          | cons y' ys =>
              rw [List.intercalate_cons_cons, List.intercalate_cons_cons, List.append_assoc,
                List.append_assoc, List.cons_append, List.cons_append] at h
              obtain ⟨rfl, htail⟩ := append_cons_inj hxfirst hyfirst h
              rw [ih hxrest hyrest (by simp) (by simp) (List.append_cancel_left htail)]

/-- Joining strings is injective in the same way. -/
theorem intercalate_string_injective {sep : String} {c : Char} (hsep : sep.toList.head? = some c)
    {xs ys : List String} (hxs : ∀ x ∈ xs, c ∉ x.toList) (hys : ∀ y ∈ ys, c ∉ y.toList)
    (hx : xs ≠ []) (hy : ys ≠ [])
    (h : String.intercalate sep xs = String.intercalate sep ys) : xs = ys := by
  obtain ⟨tail, htail⟩ := List.head?_eq_some_iff.mp hsep
  rw [← String.toList_inj, String.toList_intercalate, String.toList_intercalate, htail] at h
  apply List.map_injective_iff.mpr (fun _ _ => String.toList_inj.mp)
  exact intercalate_injective (List.forall_mem_map.mpr hxs) (List.forall_mem_map.mpr hys)
    (by simpa using hx) (by simpa using hy) h

/-- What is added behind joined texts is added to the last of them. -/
theorem intercalate_concat_append (sep : List Char) (xs : List (List Char)) (x y : List Char) :
    sep.intercalate (xs ++ [x]) ++ y = sep.intercalate (xs ++ [x ++ y]) := by
  induction xs with
  | nil => rw [List.nil_append, List.nil_append, List.intercalate_singleton,
      List.intercalate_singleton]
  | cons x' xs ih =>
      rw [List.cons_append, List.cons_append, List.intercalate_cons_of_ne_nil (by simp),
        List.intercalate_cons_of_ne_nil (by simp), List.append_assoc, ih]

/-- What is joined is part of the whole. -/
theorem infix_intercalate (sep : List Char) {xs : List (List Char)} {x : List Char} (h : x ∈ xs) :
    x <:+: sep.intercalate xs := by
  induction xs with
  | nil => cases h
  | cons y xs ih =>
      by_cases hxs : xs = []
      · subst hxs
        obtain rfl := List.mem_singleton.mp h
        have hsingle : sep.intercalate [x] = x := List.intercalate_singleton
        exact ⟨[], [], by rw [hsingle, List.nil_append, List.append_nil]⟩
      · rw [List.intercalate_cons_of_ne_nil hxs]
        rcases List.mem_cons.mp h with rfl | hrest
        · rw [List.append_assoc]
          exact (List.prefix_append _ _).isInfix
        · exact (ih hrest).trans (List.suffix_append _ _).isInfix

/-- The pieces of a text without separators. -/
theorem pieces_of_not_mem {sep : Char} {cs : List Char} (h : sep ∉ cs) : pieces sep cs = [cs] := by
  induction cs with
  | nil => rfl
  | cons c cs ih =>
      obtain ⟨hc, hcs⟩ := not_or.mp (List.mem_cons.not.mp h)
      rw [pieces, if_neg (Ne.symm hc), ih hcs]

/-- A separator ends a piece. -/
theorem pieces_append_cons (sep : Char) (front back : List Char) :
    pieces sep (front ++ sep :: back) = pieces sep front ++ pieces sep back := by
  induction front with
  | nil => simp [pieces]
  | cons c front ih =>
      rw [List.cons_append, pieces, pieces, ih]
      split
      · rfl
      · cases hfront : pieces sep front with
        | nil => exact absurd hfront (pieces_ne_nil sep front)
        | cons p ps => rfl

/-- **Cutting gives back what was joined.** -/
theorem pieces_intercalate {sep : Char} {xs : List (List Char)} (hxs : ∀ x ∈ xs, sep ∉ x)
    (hx : xs ≠ []) : pieces sep ([sep].intercalate xs) = xs := by
  induction xs with
  | nil => exact absurd rfl hx
  | cons x xs ih =>
      obtain ⟨hfirst, hrest⟩ := List.forall_mem_cons.mp hxs
      cases xs with
      | nil => rw [List.intercalate_singleton, pieces_of_not_mem hfirst]
      | cons x' xs =>
          rw [List.intercalate_cons_cons, List.append_assoc, List.singleton_append,
            pieces_append_cons, pieces_of_not_mem hfirst, ih hrest (by simp),
            List.singleton_append]

/-- What stands behind the last separator. -/
theorem splitLast_append_cons {sep : Char} {front back : List Char} (h : sep ∉ back) :
    splitLast sep (front ++ sep :: back) = some (front, back) := by
  induction front with
  | nil => rw [List.nil_append, splitLast, (splitLast_eq_none_iff sep back).mpr h, if_pos rfl]
  | cons c front ih => rw [List.cons_append, splitLast, ih]

end Templating.Text
