import Templating.Param.Declaration
import Templating.Proofs.Text.Trim

/-!
# What a declaration declares

The name and the type of a parameter are cut out of its declaration, so every
character of theirs stands in it. A default value is never empty.
-/

namespace Templating.Param

theorem mem_of_mem_dropEllipses {c : Char} {cs : List Char} (h : c ∈ dropEllipses cs) :
    c ∈ cs := by
  induction cs using dropEllipses.induct with
  | case1 cs ih =>
      rw [dropEllipses] at h
      simp [ih h]
  | case2 x cs hx ih =>
      rw [dropEllipses.eq_2 x cs hx, List.mem_cons] at h
      exact List.mem_cons.mpr (h.imp_right ih)
  | case3 => exact h

theorem mem_of_mem_splitDefault {c : Char} {cs : List Char} {depth : Nat} {previous : Option Char}
    (h : c ∈ (splitDefault depth previous cs).1) : c ∈ cs := by
  induction cs generalizing depth previous with
  | nil => exact absurd h (by simp [splitDefault])
  | cons x cs ih =>
      unfold splitDefault at h
      split at h
      · exact absurd h (by simp)
      · exact List.mem_cons.mpr ((List.mem_cons.mp h).imp_right ih)

theorem mem_of_mem_typeAfterName {c : Char} {cs : List Char} (h : c ∈ typeAfterName cs) :
    c ∈ cs := by
  have hrest := mem_of_mem_dropEllipses (Text.mem_of_mem_trim h)
  have hblank (xs : List Char) : ∀ x ∈ xs.dropWhile Text.isAsciiBlank, x ∈ xs :=
    fun x hx => (List.dropWhile_suffix _).subset hx
  split at hrest
  · rename_i rest hcolon
    exact hblank cs c (hcolon ▸ List.mem_cons_of_mem _ (hblank rest c hrest))
  · exact hblank cs c hrest

/-- The name and the type of a parameter are read off its declaration. -/
theorem mem_declaration {text : String} {p : Param} (h : ofDeclaration text = .ok p)
    {c : Char} (hc : c ∈ p.name.toList ∨ c ∈ p.type.toList) : c ∈ text.toList := by
  have hhead : c ∈ (splitDefault 0 none text.toList).1 := by
    have hname (xs : List Char) (hx : c ∈ dropEllipses
        ((xs.dropWhile Text.isAsciiBlank).takeWhile fun c => !endsName c)) : c ∈ xs :=
      (List.dropWhile_suffix _).subset
        ((List.takeWhile_prefix _).subset (mem_of_mem_dropEllipses hx))
    have htype (xs : List Char) (hx : c ∈ typeAfterName
        ((xs.dropWhile Text.isAsciiBlank).dropWhile fun c => !endsName c)) : c ∈ xs :=
      (List.dropWhile_suffix _).subset
        ((List.dropWhile_suffix _).subset (mem_of_mem_typeAfterName hx))
    unfold ofDeclaration at h
    simp only at h
    split at h
    · exact absurd h (by simp)
    · split at h
      · obtain rfl := Except.ok.inj h
        rcases hc with hc | hc
        · exact hname _ (by simpa using hc)
        · exact htype _ (by simpa using hc)
      · split at h
        · exact absurd h (by simp)
        · obtain rfl := Except.ok.inj h
          rcases hc with hc | hc
          · exact hname _ (by simpa using hc)
          · exact htype _ (by simpa using hc)
  exact mem_of_mem_splitDefault hhead

theorem default_ne_empty {text : String} {p : Param} (h : ofDeclaration text = .ok p)
    {x : String} (hx : p.default? = some x) : x ≠ "" := by
  unfold ofDeclaration at h
  simp only at h
  split at h
  · cases h
  · split at h
    · obtain rfl := Except.ok.inj h
      cases hx
    · split at h
      · cases h
      · rename_i hne
        obtain rfl := Except.ok.inj h
        obtain rfl := Option.some.inj hx
        rintro hempty
        exact hne (String.ofList_eq_empty_iff.mp hempty)

end Templating.Param
