import Mathlib.Data.List.Nodup
import Templating.Proofs.Binding.Entries

/-!
# When arguments are refused

The binder goes over the arguments once and stops at the first one it cannot place. What
it finds out on the way does not depend on the way: positional arguments reach the
parameters in order, named ones are for the parameter of that name, and a call is bound
just when every name is known, no parameter is addressed twice, there are not too many
arguments, and nothing required is left out. If the call is refused, then for a reason
that holds of the call as a whole. All this is said for parameters of which at most one is
variadic, so that every argument lands where it is addressed.
-/

namespace Templating

/-- The name that is given for the parameter. -/
def Argument.name? : Argument → Option String
  | positional _ => none
  | named name _ => some name

namespace Binding

/-- The parameters that are named, by index and in the order of the arguments. -/
def targets (params : List Param) (arguments : List Argument) : List Nat :=
  (arguments.filterMap Argument.name?).map fun name => params.findIdx fun p => p.name == name

/-- The parameters that `n` positional arguments are for: one after the other up to the
first variadic one, which takes all that are left. -/
def reach (params : List Param) (n : Nat) : List Nat :=
  (List.range n).map (min · (params.findIdx Param.variadic))

/-- Nothing is wrong with any of the arguments. -/
structure Placeable (params : List Param) (arguments : List Argument) : Prop where
  known : ∀ name ∈ arguments.filterMap Argument.name?, ∃ p ∈ params, p.name = name
  few : (∀ p ∈ params, p.variadic = false) →
    arguments.countP Argument.isPositional ≤ params.length
  once : (targets params arguments).Nodup
  behind : ∀ i ∈ targets params arguments,
    ¬ i < min (arguments.countP Argument.isPositional) (params.findIdx Param.variadic)
  apart : params.findIdx Param.variadic < arguments.countP Argument.isPositional →
    params.findIdx Param.variadic ∉ targets params arguments

/-- Some argument is for the parameter. -/
def Receives (params : List Param) (arguments : List Argument) (i : Nat) : Prop :=
  i ∈ reach params (arguments.countP Argument.isPositional) ∨ i ∈ targets params arguments

/-- The parameter is addressed twice, at least once of that by name. -/
def Clashes (params : List Param) (arguments : List Argument) (i : Nat) : Prop :=
  i ∈ targets params arguments ∧ (i ∈ reach params (arguments.countP Argument.isPositional) ∨
    2 ≤ (targets params arguments).count i)

/-- The name is that of the first required parameter that is given nothing. -/
def FirstOmitted (params : List Param) (given : Nat → Prop) (name : String) : Prop :=
  ∃ (i : Nat) (p : Param), params[i]? = some p ∧ p.name = name ∧ p.isRequired = true ∧
    ¬ given i ∧ ∀ j < i, ∀ q : Param, params[j]? = some q → q.isRequired = true → given j

/-- The call has the problem. -/
def Problem.Holds (params : List Param) (arguments : List Argument) : Problem → Prop
  | .unknown name => name ∈ arguments.filterMap Argument.name? ∧ ∀ p ∈ params, p.name ≠ name
  | .duplicate name => ∃ i p, params[i]? = some p ∧ p.name = name ∧ Clashes params arguments i
  | .tooMany expected found => (∀ p ∈ params, p.variadic = false) ∧ expected = params.length ∧
      found = arguments.countP Argument.isPositional ∧ expected < found
  | .missing name =>
      Placeable params arguments ∧ FirstOmitted params (Receives params arguments) name

/-! ## Which parameters arguments are for -/

section

variable {params : List Param} {arguments before after : List Argument} {a : Argument}
  {p : Param} {i n : Nat}

theorem targets_append (xs ys : List Argument) :
    targets params (xs ++ ys) = targets params xs ++ targets params ys := by
  unfold targets
  rw [List.filterMap_append, List.map_append]

theorem reach_succ (n : Nat) :
    reach params (n + 1) = reach params n ++ [min n (params.findIdx Param.variadic)] := by
  rw [reach, List.range_succ, List.map_append]
  rfl

theorem mem_reach : i ∈ reach params n ↔ i < n ∧ i ≤ params.findIdx Param.variadic := by
  simp only [reach, List.mem_map, List.mem_range]
  constructor
  · rintro ⟨k, hk, rfl⟩
    exact ⟨Nat.lt_of_le_of_lt (Nat.min_le_left _ _) hk, Nat.min_le_right _ _⟩
  · rintro ⟨hi, hvariadic⟩
    exact ⟨i, hi, Nat.min_eq_left hvariadic⟩

/-- The positional arguments are for the parameters that they reach. -/
theorem addressed_positional (arguments : List Argument) :
    ((addressed params 0 arguments).filter fun d => d.2.isPositional).map Prod.fst =
      reach params (arguments.countP Argument.isPositional) := by
  induction arguments using List.reverseRecOn with
  | nil => rfl
  | append_singleton arguments a ih =>
      rw [addressed_snoc, List.filter_append, List.map_append, ih, List.countP_append]
      cases a with
      | positional value => exact (reach_succ _).symm
      | named name value => exact List.append_nil _

/-- The others are for the parameters that they name. -/
theorem addressed_named (arguments : List Argument) :
    ((addressed params 0 arguments).filter fun d => !d.2.isPositional).map Prod.fst =
      targets params arguments := by
  induction arguments using List.reverseRecOn with
  | nil => rfl
  | append_singleton arguments a ih =>
      rw [addressed_snoc, List.filter_append, List.map_append, ih, targets_append]
      cases a with
      | positional value => rfl
      | named name value => rfl

theorem mem_targets : i ∈ targets params arguments ↔
    ∃ d ∈ addressed params 0 arguments, d.2.isPositional = false ∧ d.1 = i := by
  rw [← addressed_named]
  simp [and_assoc]

/-- No argument is for any other parameter. -/
theorem addresses_perm (arguments : List Argument) :
    ((addressed params 0 arguments).map Prod.fst).Perm
      (reach params (arguments.countP Argument.isPositional) ++ targets params arguments) := by
  rw [← addressed_positional, ← addressed_named, ← List.map_append]
  exact (List.filter_append_perm (fun d : Nat × Argument => d.2.isPositional) _).symm.map _

theorem receives_iff :
    Receives params arguments i ↔ ∃ d ∈ addressed params 0 arguments, d.1 = i := by
  rw [← List.mem_map, (addresses_perm arguments).mem_iff, List.mem_append]
  rfl

/-- A parameter that is named is not reached. -/
theorem Placeable.not_mem_reach (h : Placeable params arguments)
    (hi : i ∈ targets params arguments) :
    i ∉ reach params (arguments.countP Argument.isPositional) := by
  intro hreach
  obtain ⟨hlt, hle⟩ := mem_reach.mp hreach
  rcases Nat.lt_or_eq_of_le hle with hbefore | rfl
  · exact h.behind i hi (Nat.lt_min.mpr ⟨hlt, hbefore⟩)
  · exact h.apart hlt hi

/-- Two arguments that are for one parameter, not both of them by their places. -/
theorem clashes_of_addressed {d : Nat × Argument} (hd : d ∈ addressed params 0 before)
    (hi : d.1 = address params (before.countP Argument.isPositional) a)
    (hnamed : ¬ (d.2.isPositional = true ∧ a.isPositional = true)) :
    Clashes params (before ++ a :: after) d.1 := by
  obtain ⟨others, hsplit⟩ : ∃ others, addressed params 0 (before ++ a :: after) =
      addressed params 0 before ++ (d.1, a) :: others := by
    rw [addressed_append, Nat.zero_add, hi]
    exact ⟨_, rfl⟩
  have htarget : d.1 ∈ targets params (before ++ a :: after) := by
    rw [mem_targets, hsplit]
    by_cases hd' : d.2.isPositional = true
    · have ha : a.isPositional = false := by simpa using fun h => hnamed ⟨hd', h⟩
      exact ⟨(d.1, a), List.mem_append_right _ List.mem_cons_self, ha, rfl⟩
    · exact ⟨d, List.mem_append_left _ hd, by simpa using hd', rfl⟩
  have hcount : 2 ≤ ((addressed params 0 (before ++ a :: after)).map Prod.fst).count d.1 := by
    have hfirst := List.count_pos_iff.mpr (List.mem_map_of_mem (f := Prod.fst) hd)
    rw [hsplit, List.map_append, List.count_append, List.map_cons, List.count_cons_self]
    omega
  refine ⟨htarget, ?_⟩
  rw [(addresses_perm _).count_eq, List.count_append] at hcount
  by_contra hnot
  rw [not_or, Nat.not_le] at hnot
  rw [List.count_eq_zero.mpr hnot.1] at hcount
  omega

/-! ## One variadic parameter -/

section One

variable (hone : params.countP Param.variadic ≤ 1)

include hone

theorem eq_findIdx (hp : params[i]? = some p) (hvariadic : p.variadic = true) :
    i = params.findIdx Param.variadic := by
  induction params generalizing i with
  | nil => cases hp
  | cons q params ih =>
      cases hq : q.variadic with
      | true =>
          rw [List.countP_cons_of_pos hq] at hone
          cases i with
          | zero => simp [List.findIdx_cons, hq]
          | succ i =>
              have hnone : params.countP Param.variadic = 0 := by omega
              exact absurd hvariadic (List.countP_eq_zero.mp hnone p (List.mem_of_getElem? hp))
      | false =>
          rw [List.countP_cons_of_neg (by simp [hq])] at hone
          cases i with
          | zero =>
              cases hp
              rw [hq] at hvariadic
              cases hvariadic
          | succ i => simp [List.findIdx_cons, hq, ih hone hp]

/-- Nothing lands anywhere but where it is addressed. -/
theorem landing_eq_self (hi : i < params.length) : landing params i = i := by
  have hp := List.getElem?_eq_getElem hi
  rw [landing_eq hp]
  split
  · rename_i hvariadic
    exact (eq_findIdx hone hp hvariadic).symm
  · rfl

section Known

variable (hknown : ∀ d ∈ addressed params 0 arguments, d.1 < params.length)

include hknown

theorem length_landed (i : Nat) : (landed params arguments i).length =
    (reach params (arguments.countP Argument.isPositional)).count i +
      (targets params arguments).count i := by
  rw [landed_eq_sent (fun d hd => landing_eq_self hone (hknown d hd)), sent, List.length_map,
    ← List.countP_eq_length_filter, ← List.count_append, ← (addresses_perm arguments).count_eq,
    List.count_eq_countP, List.countP_map]
  rfl

theorem landed_eq_nil_iff : landed params arguments i = [] ↔ ¬ Receives params arguments i := by
  rw [← List.length_eq_zero_iff, length_landed hone hknown, Nat.add_eq_zero_iff,
    List.count_eq_zero, List.count_eq_zero, Receives, not_or]

theorem namesRest_iff_mem : NamesRest params arguments ↔
    params.findIdx Param.variadic ∈ targets params arguments := by
  rw [mem_targets]
  refine exists_congr fun d => and_congr_right fun hd => and_congr_right fun _ => ?_
  rw [landing_eq_self hone (hknown d hd)]

end Known

/-- What fits at a parameter that is named is alone there. -/
theorem Fits.alone (h : Fits params arguments) (hi : i ∈ targets params arguments) :
    i ∉ reach params (arguments.countP Argument.isPositional) ∧
      (targets params arguments).count i = 1 := by
  have hlt : i < params.length := by
    obtain ⟨d, hd, -, rfl⟩ := mem_targets.mp hi
    exact h.known d hd
  have hlength : (landed params arguments i).length ≤ 1 := by
    have hp := List.getElem?_eq_getElem hlt
    cases hvariadic : params[i].variadic with
    | false => exact h.single i _ hp hvariadic
    | true =>
        obtain rfl := eq_findIdx hone hp hvariadic
        exact h.rest ((namesRest_iff_mem hone h.known).mpr hi)
  have hnamed := List.count_pos_iff.mpr hi
  rw [length_landed hone h.known] at hlength
  exact ⟨List.count_eq_zero.mp (by omega), by omega⟩

/-- **Nothing is wrong with arguments that fit.** -/
theorem Fits.placeable (h : Fits params arguments) : Placeable params arguments where
  known name hname := by
    have htarget : (params.findIdx fun p => p.name == name) ∈ targets params arguments :=
      List.mem_map_of_mem hname
    obtain ⟨d, hd, -, hd'⟩ := mem_targets.mp htarget
    have hlt := h.known d hd
    rw [hd', List.findIdx_lt_length] at hlt
    simpa using hlt
  few hnone := by
    have hend : params.findIdx Param.variadic = params.length := List.findIdx_eq_length.mpr hnone
    by_contra hmany
    have hreach : params.length ∈ reach params (arguments.countP Argument.isPositional) :=
      mem_reach.mpr ⟨Nat.lt_of_not_le hmany, Nat.le_of_eq hend.symm⟩
    obtain ⟨d, hd, hd'⟩ := receives_iff.mp (Or.inl hreach)
    exact Nat.lt_irrefl _ (hd' ▸ h.known d hd)
  once := by
    refine List.nodup_iff_count_le_one.mpr fun i => ?_
    by_cases hi : i ∈ targets params arguments
    · exact Nat.le_of_eq (h.alone hone hi).2
    · rw [List.count_eq_zero.mpr hi]
      exact Nat.zero_le 1
  behind i hi hlt := by
    obtain ⟨hpositional, hbefore⟩ := Nat.lt_min.mp hlt
    exact (h.alone hone hi).1 (mem_reach.mpr ⟨hpositional, Nat.le_of_lt hbefore⟩)
  apart hlt hnamed := (h.alone hone hnamed).1 (mem_reach.mpr ⟨hlt, Nat.le_refl _⟩)

end One

/-! ## An argument that is refused -/

theorem map_eq_error_iff {ε α β : Type} {x : Except ε α} {g : α → β} {e : ε} :
    g <$> x = .error e ↔ x = .error e := by
  cases x <;> simp [Functor.map, Except.map]

/-- A run that fails does so at one element, behind others with which it does not. -/
theorem foldlM_eq_error {ε α β : Type} {f : β → α → Except ε β} {xs : List α} {b : β} {e : ε}
    (h : xs.foldlM f b = .error e) : ∃ before x after b', xs = before ++ x :: after ∧
      before.foldlM f b = .ok b' ∧ f b' x = .error e := by
  induction xs generalizing b with
  | nil => cases h
  | cons x xs ih =>
      rw [List.foldlM_cons] at h
      cases hx : f b x with
      | error e' =>
          rw [hx] at h
          exact ⟨[], x, xs, b, rfl, rfl, hx.trans h⟩
      | ok b' =>
          rw [hx] at h
          obtain ⟨before, y, after, b'', rfl, hbefore, hy⟩ := ih h
          refine ⟨x :: before, y, after, b'', rfl, ?_, hy⟩
          rw [List.foldlM_cons, hx]
          exact hbefore

/-- What is wrong with an argument that is for no parameter, one of `total` positional
ones if it is positional. -/
def stray (params : List Param) (total : Nat) : Argument → Problem
  | .positional _ => .tooMany params.length total
  | .named name _ => .unknown name

namespace Filling

variable {f : Filling} {index total : Nat} {name value : String} {problem : Problem}

theorem fill_eq_error (h : f.fill index p value = .error problem) :
    problem = .duplicate p.name := by
  unfold fill at h
  split at h
  · exact (Except.error.inj h).symm
  · cases h

theorem addToRest_eq_error (h : f.addToRest p value = .error problem) :
    problem = .duplicate p.name := by
  unfold addToRest at h
  split at h
  · exact (Except.error.inj h).symm
  · cases h

theorem nameRest_eq_error (h : f.nameRest name value = .error problem) :
    problem = .duplicate name := by
  unfold nameRest at h
  split at h
  · exact (Except.error.inj h).symm
  · cases h

/-- **An argument is refused** if there is no parameter for it, or no room at the parameter. -/
theorem place_eq_error (h : f.place params total a = .error problem) :
    (params[address params f.next a]? = none ∧ problem = stray params total a) ∨
      ∃ p, params[address params f.next a]? = some p ∧
        ¬ f.Admits p (address params f.next a) a ∧ problem = .duplicate p.name := by
  have hroom (p : Param) (hp : params[address params f.next a]? = some p) :
      ¬ f.Admits p (address params f.next a) a := by
    intro hadmits
    rw [place_eq_ok_iff.mpr ⟨p, hp, hadmits, rfl⟩] at h
    cases h
  cases a with
  | positional value =>
      change f.placePositional params total value = _ at h
      unfold placePositional at h
      rw [target?_eq f params value] at h
      cases hp : params[address params f.next (.positional value)]? with
      | none =>
          rw [hp] at h
          exact Or.inl ⟨rfl, (Except.error.inj h).symm⟩
      | some p =>
          rw [hp] at h
          refine Or.inr ⟨p, rfl, hroom p hp, ?_⟩
          simp only [Option.map_some, bind_pure_comp] at h
          split at h
          · exact addToRest_eq_error (map_eq_error_iff.mp h)
          · exact fill_eq_error (map_eq_error_iff.mp h)
  | named name value =>
      change f.placeNamed params name value = _ at h
      unfold placeNamed at h
      rw [List.findIdx?_eq_guard_findIdx_lt, Option.guard] at h
      cases hp : params[address params f.next (.named name value)]? with
      | none =>
          have hlength : params.length ≤ params.findIdx fun p => p.name == name :=
            List.getElem?_eq_none_iff.mp hp
          simp only [Nat.not_lt.mpr hlength, decide_false, Bool.false_eq_true, if_false] at h
          exact Or.inl ⟨rfl, (Except.error.inj h).symm⟩
      | some p =>
          obtain ⟨hlt, hget⟩ := List.getElem?_eq_some_iff.mp hp
          have hname : p.name = name := by
            rw [← hget]
            exact beq_iff_eq.mp
              (@List.findIdx_getElem Param (fun p => p.name == name) params hlt)
          refine Or.inr ⟨p, rfl, hroom p hp, ?_⟩
          change params[params.findIdx fun p => p.name == name]? = some p at hp
          change (params.findIdx fun p => p.name == name) < params.length at hlt
          simp only [hlt, decide_true, if_true, hp] at h
          split at h
          · exact hname ▸ nameRest_eq_error h
          · exact fill_eq_error h

end Filling

/-- What is said of an argument that is for no parameter is true. -/
theorem stray_holds
    (h : params[address params (before.countP Argument.isPositional) a]? = none) :
    (stray params ((before ++ a :: after).countP Argument.isPositional) a).Holds params
      (before ++ a :: after) := by
  have hlength := List.getElem?_eq_none_iff.mp h
  cases a with
  | positional value =>
      obtain ⟨hpositional, hvariadic⟩ := Nat.le_min.mp hlength
      refine ⟨?_, rfl, rfl, ?_⟩
      · exact List.findIdx_eq_length.mp (Nat.le_antisymm List.findIdx_le_length hvariadic)
      · rw [List.countP_append, List.countP_cons_of_pos rfl]
        omega
  | named name value =>
      refine ⟨?_, fun p hp hname => ?_⟩
      · rw [List.filterMap_append]
        exact List.mem_append_right _ List.mem_cons_self
      · have hlt : (params.findIdx fun p => p.name == name) < params.length :=
          List.findIdx_lt_length_of_exists ⟨p, hp, beq_iff_eq.mpr hname⟩
        exact absurd hlength (Nat.not_le_of_lt hlt)

/-- A parameter that has no room is addressed twice. -/
theorem clashes_of_not_admits (hone : params.countP Param.variadic ≤ 1)
    (hfits : Fits params before)
    (hi : address params (before.countP Argument.isPositional) a = i) (hp : params[i]? = some p)
    (hroom : ¬ (filled params before).Admits p i a) : Clashes params (before ++ a :: after) i := by
  have hfirst (hlanded : landed params before i ≠ []) :
      ∃ d ∈ addressed params 0 before, d.1 = i := by
    rw [Ne, landed_eq_nil_iff hone hfits.known, not_not] at hlanded
    exact receives_iff.mp hlanded
  unfold Filling.Admits at hroom
  cases hvariadic : p.variadic with
  | true =>
      rw [hvariadic, if_pos rfl] at hroom
      obtain rfl := eq_findIdx hone hp hvariadic
      by_cases hnamed : NamesRest params before
      · obtain ⟨d, hd, hd', hlanding⟩ := hnamed
        rw [landing_eq_self hone (hfits.known d hd)] at hlanding
        rw [← hlanding]
        exact clashes_of_addressed hd (hlanding.trans hi.symm) (by simp [hd'])
      · -- It has not been named before, so it is this argument that names it.
        rw [and_iff_right (show (filled params before).restNamed = false from
          decide_eq_false hnamed), Classical.not_imp] at hroom
        obtain ⟨d, hd, hd'⟩ := hfirst hroom.2
        rw [← hd']
        exact clashes_of_addressed hd (hd'.trans hi.symm) (by simp [hroom.1])
  | false =>
      rw [hvariadic, if_neg Bool.false_ne_true, filled_slot hp, hvariadic,
        if_neg Bool.false_ne_true, List.head?_eq_none_iff] at hroom
      obtain ⟨d, hd, rfl⟩ := hfirst hroom
      refine clashes_of_addressed hd hi.symm ?_
      -- Two positional arguments are for one parameter only if it is variadic.
      rintro ⟨hd', ha⟩
      have hreach : d.1 ∈ reach params (before.countP Argument.isPositional) := by
        rw [← addressed_positional]
        exact List.mem_map_of_mem (List.mem_filter.mpr ⟨hd, hd'⟩)
      obtain ⟨hlt, hle⟩ := mem_reach.mp hreach
      cases a with
      | named name value => cases ha
      | positional value =>
          have hmin : min (before.countP Argument.isPositional)
              (params.findIdx Param.variadic) = d.1 := hi
          have hother := ne_findIdx hp hvariadic
          omega

/-- **If an argument is refused, the call has the problem that is reported.** -/
theorem holds_of_place (hone : params.countP Param.variadic ≤ 1) {problem : Problem}
    (h : arguments.foldlM (Filling.place params (arguments.countP Argument.isPositional))
      (Filling.start params) = .error problem) : problem.Holds params arguments := by
  obtain ⟨before, a, after, f, rfl, hbefore, ha⟩ := foldlM_eq_error h
  obtain ⟨hfits, rfl⟩ := place_all_eq_ok_iff.mp hbefore
  rcases Filling.place_eq_error ha with ⟨hnone, rfl⟩ | ⟨p, hp, hroom, rfl⟩
  · exact stray_holds hnone
  · exact ⟨_, p, hp, rfl, clashes_of_not_admits hone hfits rfl hp hroom⟩

/-! ## A parameter that is left out -/

section Omitted

variable {given given' : Nat → Prop} {name : String}

theorem FirstOmitted.cons {q : Param} (h : FirstOmitted params (fun i => given (i + 1)) name)
    (hq : q.isRequired = true → given 0) : FirstOmitted (q :: params) given name := by
  obtain ⟨i, p, hp, hname, hrequired, hnone, hbefore⟩ := h
  refine ⟨i + 1, p, hp, hname, hrequired, hnone, fun j hj r hr hr' => ?_⟩
  cases j with
  | zero =>
      obtain rfl := Option.some.inj hr
      exact hq hr'
  | succ j => exact hbefore j (Nat.lt_of_succ_lt_succ hj) r hr hr'

theorem FirstOmitted.congr (h : FirstOmitted params given name)
    (hsame : ∀ (i : Nat) (p : Param), params[i]? = some p → p.isRequired = true →
      (given i ↔ given' i)) : FirstOmitted params given' name := by
  obtain ⟨i, p, hp, hname, hrequired, hnone, hbefore⟩ := h
  refine ⟨i, p, hp, hname, hrequired, mt (hsame i p hp hrequired).mpr hnone, ?_⟩
  intro j hj q hq hq'
  exact (hsame j q hq hq').mp (hbefore j hj q hq hq')

end Omitted

theorem collect_eq_error {slots : List (Option String)} {rest : List String} {problem : Problem}
    (h : collect params slots rest = .error problem) : ∃ name, problem = .missing name ∧
      FirstOmitted params (fun i => slots[i]?.join ≠ none) name := by
  induction params generalizing slots rest with
  | nil => cases h
  | cons q params ih =>
      have hnext {rest' : List String} {b : Bound}
          (hrest : (b :: ·) <$> collect params slots.tail rest' = .error problem)
          (hq : q.isRequired = true → slots.head?.join ≠ none) : ∃ name,
            problem = .missing name ∧
              FirstOmitted (q :: params) (fun i => slots[i]?.join ≠ none) name := by
        obtain ⟨name, hproblem, homitted⟩ := ih (map_eq_error_iff.mp hrest)
        rw [List.head?_eq_getElem?] at hq
        simp only [List.getElem?_tail] at homitted
        exact ⟨name, hproblem, homitted.cons hq⟩
      simp only [collect, bind_pure_comp] at h
      split at h
      · rename_i hvariadic
        refine hnext h fun hq => ?_
        simp [Param.isRequired, hvariadic] at hq
      · rename_i hvariadic
        split at h
        · rename_i value hvalue
          exact hnext h fun _ => by simp [hvalue]
        · rename_i value hnone hdefault
          refine hnext h fun hq => ?_
          simp [Param.isRequired, hdefault] at hq
        · rename_i hnone hdefault
          refine ⟨q.name, (Except.error.inj h).symm, 0, q, rfl, rfl, ?_, ?_, ?_⟩
          · simp [Param.isRequired, hdefault, hvariadic]
          · rw [List.head?_eq_getElem?] at hnone
            exact not_not.mpr hnone
          · intro j hj
            cases hj

/-- Behind arguments that fit, the slot of a required parameter is filled just when an
argument is for it. -/
theorem filled_slot_ne_none_iff (hone : params.countP Param.variadic ≤ 1)
    (hfits : Fits params arguments) (hp : params[i]? = some p) (hrequired : p.isRequired = true) :
    (filled params arguments).slots[i]?.join ≠ none ↔ Receives params arguments i := by
  have hvariadic : p.variadic = false := by
    unfold Param.isRequired at hrequired
    simpa using (Bool.and_eq_true_iff.mp hrequired).2
  rw [filled_slot hp, hvariadic, if_neg Bool.false_ne_true, Ne, List.head?_eq_none_iff,
    landed_eq_nil_iff hone hfits.known, not_not]

/-! ## The whole call -/

/-- **A call that is not bound has the problem that is reported.** -/
theorem holds_of_bind (hone : params.countP Param.variadic ≤ 1) {problem : Problem}
    (h : bind params arguments = .error problem) : problem.Holds params arguments := by
  unfold bind at h
  simp only [← List.countP_eq_length_filter] at h
  cases hplace : arguments.foldlM (Filling.place params (arguments.countP Argument.isPositional))
      (Filling.start params) with
  | error problem' =>
      rw [hplace] at h
      obtain rfl := Except.error.inj h
      exact holds_of_place hone hplace
  | ok f =>
      rw [hplace] at h
      obtain ⟨hfits, rfl⟩ := place_all_eq_ok_iff.mp hplace
      obtain ⟨name, rfl, homitted⟩ := collect_eq_error h
      refine ⟨hfits.placeable hone, homitted.congr fun i p hp hrequired => ?_⟩
      exact filled_slot_ne_none_iff hone hfits hp hrequired

/-- A call in which nothing is wrong and nothing is left out has no problem. -/
theorem Placeable.not_holds (h : Placeable params arguments)
    (hreceives : ∀ (i : Nat) (p : Param), params[i]? = some p → p.isRequired = true →
      Receives params arguments i) (problem : Problem) : ¬ problem.Holds params arguments := by
  intro hholds
  cases problem with
  | unknown name =>
      obtain ⟨hname, hundeclared⟩ := hholds
      obtain ⟨p, hp, hpname⟩ := h.known name hname
      exact hundeclared p hp hpname
  | duplicate name =>
      obtain ⟨i, p, -, -, hnamed, hreach | htwice⟩ := hholds
      · exact h.not_mem_reach hnamed hreach
      · have honce := List.nodup_iff_count_le_one.mp h.once i
        omega
  | tooMany expected found =>
      obtain ⟨hnone, rfl, rfl, hmany⟩ := hholds
      exact Nat.not_le_of_lt hmany (h.few hnone)
  | missing name =>
      obtain ⟨-, i, p, hp, -, hrequired, homitted, -⟩ := hholds
      exact homitted (hreceives i p hp hrequired)

end

/-- **Arguments are bound just when** nothing is wrong with any of them and every required
parameter receives one. If they are not, the call has the problem that is reported. -/
theorem bound_iff_placeable (params : List Param) (raw : List String)
    (hone : params.countP Param.variadic ≤ 1) :
    let arguments := raw.map Argument.classify
    ((∃ bound, bind params arguments = .ok bound) ↔ Placeable params arguments ∧
      ∀ (i : Nat) (p : Param), params[i]? = some p → p.isRequired = true →
        Receives params arguments i) ∧
    ∀ problem, bind params arguments = .error problem → problem.Holds params arguments := by
  intro arguments
  refine ⟨⟨?_, ?_⟩, fun problem => holds_of_bind hone⟩
  · rintro ⟨bound, h⟩
    obtain ⟨hfits, -, hentries⟩ := entries_of_bind h
    refine ⟨hfits.placeable hone, fun i p hp hrequired => ?_⟩
    obtain ⟨b, -, htakes⟩ := hentries i p hp
    by_contra hnone
    rw [(landed_eq_nil_iff hone hfits.known).mpr hnone] at htakes
    unfold Param.isRequired at hrequired
    cases htakes with
    | omitted x _ hdefault => simp [hdefault] at hrequired
    | variadic _ hvariadic => simp [hvariadic] at hrequired
  · rintro ⟨hplaceable, hreceives⟩
    cases h : bind params arguments with
    | ok bound => exact ⟨bound, rfl⟩
    | error problem =>
        exact absurd (holds_of_bind hone h) (hplaceable.not_holds hreceives problem)

theorem bound_iff_placeable_variadic :
    let params : List Param :=
      [{ name := "a" }, { name := "b", default? := some "0" }, { name := "c", variadic := true }]
    let early := ["c = y", "x"].map Argument.classify
    let late := ["c = y", "x", "1", "2"].map Argument.classify
    params.countP Param.variadic ≤ 1 ∧ bind params early =
        .ok [.single "x", .single "0", .variadic ["y"]] ∧ Placeable params early ∧
      bind params late = .error (.duplicate "c") ∧ ¬ Placeable params late ∧
        Problem.Holds params late (.duplicate "c") := by
  intro params early late
  have hone : params.countP Param.variadic ≤ 1 := by decide
  have hbound : bind params early = .ok [.single "x", .single "0", .variadic ["y"]] := by
    decide +kernel
  have hrefused : bind params late = .error (.duplicate "c") := by decide +kernel
  have hlate := bound_iff_placeable params ["c = y", "x", "1", "2"] hone
  refine ⟨hone, hbound, ?_, hrefused, fun hplaceable => ?_, hlate.2 _ hrefused⟩
  · exact ((bound_iff_placeable params ["c = y", "x"] hone).1.mp ⟨_, hbound⟩).1
  · -- The variadic parameter is named, and the last positional argument is for it as well.
    exact hplaceable.apart (by decide +kernel) (by decide +kernel)

end Binding

end Templating
