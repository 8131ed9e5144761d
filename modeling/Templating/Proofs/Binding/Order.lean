import Templating.Proofs.Binding.Delivery

/-!
# Binding does not depend on where named arguments stand

A named argument is addressed by its name alone, and a positional one by the positional
ones before it. So moving the named arguments about only permutes what is addressed to
each parameter. Where the arguments fit, at most one of them lands at a parameter or all
that land there are positional, and nothing can have changed.
-/

namespace Templating

namespace Binding

section

variable {params : List Param} {arguments arguments' : List Argument} {index : Nat}

/-- The addresses of the positional arguments, then those of the named ones. -/
theorem addressed_perm_split (k : Nat) (arguments : List Argument) :
    (addressed params k arguments).Perm
      (addressed params k (arguments.filter Argument.isPositional) ++
        (arguments.filter fun a => !a.isPositional).map fun a => (address params 0 a, a)) := by
  induction arguments generalizing k with
  | nil => exact .nil
  | cons a arguments ih =>
      cases a with
      | positional value => exact (ih (k + 1)).cons _
      | named name value => exact ((ih k).cons _).trans List.perm_middle.symm

theorem addressed_filter_positional (k : Nat) (arguments : List Argument) :
    (addressed params k arguments).filter (fun d => d.2.isPositional) =
      addressed params k (arguments.filter Argument.isPositional) := by
  induction arguments generalizing k with
  | nil => rfl
  | cons a arguments ih =>
      cases a with
      | positional value => exact congrArg (List.cons _) (ih (k + 1))
      | named name value => exact ih k

theorem eq_of_perm_of_length_le_one {α : Type} {xs ys : List α} (h : xs.Perm ys)
    (hlength : xs.length ≤ 1) : xs = ys := by
  match xs, hlength with
  | [], _ => exact (List.nil_perm.mp h).symm
  | [x], _ => exact List.singleton_perm.mp h

section Moved

variable (hperm : arguments.Perm arguments')
  (hsame : arguments.filter Argument.isPositional = arguments'.filter Argument.isPositional)

include hperm hsame

theorem addressed_perm :
    (addressed params 0 arguments).Perm (addressed params 0 arguments') := by
  have hnamed := ((hperm.filter fun a => !a.isPositional).map
    fun a => (address params 0 a, a)).append_left
      (addressed params 0 (arguments'.filter Argument.isPositional))
  have hsplit := @addressed_perm_split params 0 arguments
  rw [hsame] at hsplit
  exact (hsplit.trans hnamed).trans (addressed_perm_split 0 arguments').symm

theorem landed_reordered (index : Nat) :
    (landed params arguments index).Perm (landed params arguments' index) :=
  ((addressed_perm hperm hsame).filter _).map _

theorem namesRest_iff : NamesRest params arguments ↔ NamesRest params arguments' := by
  unfold NamesRest
  simp only [(addressed_perm hperm hsame).mem_iff]

theorem Fits.moved (h : Fits params arguments) : Fits params arguments' where
  known d hd := h.known d ((addressed_perm hperm hsame).mem_iff.mpr hd)
  single i p hp hvariadic := by
    rw [← (landed_reordered hperm hsame i).length_eq]
    exact h.single i p hp hvariadic
  rest hnamed := by
    rw [← (landed_reordered hperm hsame _).length_eq]
    exact h.rest ((namesRest_iff hperm hsame).mpr hnamed)

end Moved

/-- Where no named argument lands, the positional ones tell what does. -/
theorem landed_of_not_namesRest (h : ¬ NamesRest params arguments) :
    landed params arguments (params.findIdx Param.variadic) =
      landed params (arguments.filter Argument.isPositional)
        (params.findIdx Param.variadic) := by
  unfold landed
  rw [← addressed_filter_positional, List.filter_filter]
  refine congrArg _ (List.filter_congr fun d hd => ?_)
  rw [Bool.eq_iff_iff, Bool.and_eq_true, beq_iff_eq, iff_self_and]
  intro hlanding
  by_contra hnamed
  exact h ⟨d, hd, Bool.eq_false_iff.mpr hnamed, hlanding⟩

theorem filled_eq_of_perm (hperm : arguments.Perm arguments')
    (hsame : arguments.filter Argument.isPositional = arguments'.filter Argument.isPositional)
    (h : Fits params arguments) : filled params arguments = filled params arguments' := by
  have hrest : landed params arguments (params.findIdx Param.variadic) =
      landed params arguments' (params.findIdx Param.variadic) := by
    by_cases hnamed : NamesRest params arguments
    · exact eq_of_perm_of_length_le_one (landed_reordered hperm hsame _) (h.rest hnamed)
    · have hnamed' := mt (namesRest_iff hperm hsame).mpr hnamed
      rw [landed_of_not_namesRest hnamed, landed_of_not_namesRest hnamed', hsame]
  unfold filled
  rw [Filling.mk.injEq]
  refine ⟨List.ext_getElem? fun i => ?_, hrest, ?_, ?_⟩
  · rw [List.getElem?_mapIdx, List.getElem?_mapIdx]
    refine Option.map_congr fun p hp => ?_
    cases hvariadic : p.variadic with
    | true => rfl
    | false =>
        rw [eq_of_perm_of_length_le_one (landed_reordered hperm hsame i)
          (h.single i p hp hvariadic)]
  · exact decide_eq_decide.mpr (namesRest_iff hperm hsame)
  · rw [List.countP_eq_length_filter, hsame, List.countP_eq_length_filter]

theorem bind_of_perm (hperm : arguments.Perm arguments')
    (hsame : arguments.filter Argument.isPositional = arguments'.filter Argument.isPositional)
    {bound : List Bound} (h : bind params arguments = .ok bound) :
    bind params arguments' = .ok bound := by
  obtain ⟨f, hplace, hcollect⟩ := bind_eq_ok_iff.mp h
  obtain ⟨hfits, rfl⟩ := place_all_eq_ok_iff.mp hplace
  refine bind_eq_ok_iff.mpr ⟨_, place_all_eq_ok_iff.mpr ⟨hfits.moved hperm hsame, rfl⟩, ?_⟩
  rwa [← filled_eq_of_perm hperm hsame hfits]

end

/-- **Binding does not depend on where named arguments stand.** -/
theorem bind_perm_iff (params : List Param) {raw raw' : List String} (hperm : raw.Perm raw')
    (hsame : raw.filter (fun x => (Argument.classify x).isPositional) =
      raw'.filter fun x => (Argument.classify x).isPositional) (bound : List Bound) :
    bind params (raw.map Argument.classify) = .ok bound ↔
      bind params (raw'.map Argument.classify) = .ok bound := by
  have hclassified : (raw.map Argument.classify).filter Argument.isPositional =
      (raw'.map Argument.classify).filter Argument.isPositional := by
    rw [List.filter_map, List.filter_map]
    exact congrArg _ hsame
  constructor
  · exact bind_of_perm (hperm.map _) hclassified
  · exact bind_of_perm (hperm.map _).symm hclassified.symm

theorem bind_perm_iff_moved :
    let params : List Param :=
      [{ name := "a" }, { name := "b", default? := some "0" },
        { name := "c", variadic := true }]
    let raw := ["x", "c = y", "b = z"]
    let raw' := ["c = y", "b = z", "x"]
    bind params (raw.map Argument.classify) =
        .ok [.single "x", .single "z", .variadic ["y"]] ∧
      bind params (raw'.map Argument.classify) =
        .ok [.single "x", .single "z", .variadic ["y"]] := by
  intro params raw raw'
  have h : bind params (raw.map Argument.classify) =
      .ok [.single "x", .single "z", .variadic ["y"]] := by decide +kernel
  have hperm : raw.Perm raw' := by decide
  exact ⟨h, (bind_perm_iff params hperm (by decide +kernel) _).mp h⟩

end Binding

end Templating
