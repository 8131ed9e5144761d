import Mathlib.Data.List.Induction
import Templating.Binding

/-!
# Where arguments are delivered

Every argument of a call is addressed to one parameter: a positional one by its place,
a named one by its name. The binder keeps one list for all variadic parameters together,
so it lands there if it is addressed to any of them. What the binder holds after placing
arguments is told from where they land, whatever their order, and it can place them just
when each is addressed to a parameter and none lands where it has no room.
-/

namespace Templating

/-- The expression that an argument passes. -/
def Argument.value : Argument → String
  | positional value => value
  | named _ value => value

namespace Binding

/-- The index of the parameter that an argument is addressed to, where `k` positional
ones stand before it; the number of parameters, if there is none. -/
def address (params : List Param) (k : Nat) : Argument → Nat
  | .positional _ => min k (params.findIdx Param.variadic)
  | .named name _ => params.findIdx fun p => p.name == name

/-- The arguments with their addresses; `k` positional ones stand before. -/
def addressed (params : List Param) : Nat → List Argument → List (Nat × Argument)
  | _, [] => []
  | k, a :: arguments =>
      (address params k a, a) ::
        addressed params (if a.isPositional then k + 1 else k) arguments

/-- Where the binder puts what is addressed to a parameter: what is meant for any
variadic one goes to the first. -/
def landing (params : List Param) (index : Nat) : Nat :=
  if params[index]?.any Param.variadic then params.findIdx Param.variadic else index

/-- The expressions addressed to the parameter, in order. -/
def sent (params : List Param) (arguments : List Argument) (index : Nat) : List String :=
  ((addressed params 0 arguments).filter fun d => d.1 == index).map fun d => d.2.value

/-- The expressions that land at the parameter, in order. -/
def landed (params : List Param) (arguments : List Argument) (index : Nat) : List String :=
  ((addressed params 0 arguments).filter fun d => landing params d.1 == index).map
    fun d => d.2.value

section

variable {params : List Param} {arguments : List Argument} {a : Argument} {p : Param}
  {i j k total : Nat}

theorem addressed_append (k : Nat) (xs ys : List Argument) :
    addressed params k (xs ++ ys) = addressed params k xs ++
      addressed params (k + xs.countP Argument.isPositional) ys := by
  induction xs generalizing k with
  | nil => rfl
  | cons a xs ih =>
      rw [List.cons_append, addressed, ih, addressed, List.countP_cons]
      cases a.isPositional <;> simp [Nat.add_comm, Nat.add_left_comm]

/-- The address of the last argument. -/
theorem addressed_snoc (arguments : List Argument) (a : Argument) :
    addressed params 0 (arguments ++ [a]) = addressed params 0 arguments ++
      [(address params (arguments.countP Argument.isPositional) a, a)] := by
  rw [addressed_append, Nat.zero_add]
  rfl

theorem landed_snoc (arguments : List Argument) (a : Argument) (index : Nat) :
    landed params (arguments ++ [a]) index = landed params arguments index ++
      if landing params (address params (arguments.countP Argument.isPositional) a) = index
      then [a.value] else [] := by
  unfold landed
  rw [addressed_snoc, List.filter_append, List.map_append, List.filter_cons, List.filter_nil]
  simp only [beq_iff_eq]
  split <;> rfl

theorem landing_eq (h : params[i]? = some p) :
    landing params i = if p.variadic then params.findIdx Param.variadic else i := by
  rw [landing, h, Option.any_some]

/-- The first variadic parameter is variadic. -/
theorem variadic_of_findIdx (h : params[params.findIdx Param.variadic]? = some p) :
    p.variadic = true := by
  obtain ⟨hlt, rfl⟩ := List.getElem?_eq_some_iff.mp h
  exact List.findIdx_getElem

theorem ne_findIdx (hp : params[i]? = some p) (hvariadic : p.variadic = false) :
    i ≠ params.findIdx Param.variadic := by
  rintro rfl
  rw [variadic_of_findIdx hp] at hvariadic
  cases hvariadic

end

/-! ## Placing one argument -/

theorem bind_eq_ok_iff {ε α β : Type} {x : Except ε α} {next : α → Except ε β} {b : β} :
    x >>= next = .ok b ↔ ∃ a, x = .ok a ∧ next a = .ok b := by
  cases x <;> simp [Bind.bind, Except.bind]

theorem map_eq_ok_iff {ε α β : Type} {x : Except ε α} {g : α → β} {b : β} :
    g <$> x = .ok b ↔ ∃ a, x = .ok a ∧ b = g a := by
  cases x <;> simp [Functor.map, Except.map, eq_comm]

namespace Filling

/-- There is room for the argument at the parameter. -/
def Admits (f : Filling) (p : Param) (index : Nat) (a : Argument) : Prop :=
  if p.variadic then f.restNamed = false ∧ (a.isPositional = false → f.rest = [])
  else f.slots[index]?.join = none

/-- The filling with one more argument, at the parameter. -/
def put (f : Filling) (p : Param) (index : Nat) (a : Argument) : Filling where
  slots := if p.variadic then f.slots else f.slots.set index (some a.value)
  rest := if p.variadic then f.rest ++ [a.value] else f.rest
  restNamed := f.restNamed || (p.variadic && !a.isPositional)
  next := if a.isPositional then f.next + 1 else f.next

variable {params : List Param} {f f' : Filling} {p : Param} {a : Argument}
  {index total : Nat} {name value : String}

theorem target?_eq (f : Filling) (params : List Param) (value : String) :
    f.target? params = params[address params f.next (.positional value)]?.map
      fun p => (address params f.next (.positional value), p) := by
  unfold target? address
  rw [List.findIdx?_eq_guard_findIdx_lt, Option.guard]
  by_cases hv : params.findIdx Param.variadic < params.length
  · simp [hv]
  · have hlength : params.findIdx Param.variadic = params.length :=
      Nat.le_antisymm List.findIdx_le_length (Nat.le_of_not_lt hv)
    simp only [hlength, Nat.lt_irrefl, decide_false, Bool.false_eq_true, if_false]
    rcases Nat.lt_or_ge f.next params.length with hnext | hnext
    · rw [Nat.min_eq_left (Nat.le_of_lt hnext)]
    · rw [Nat.min_eq_right hnext, List.getElem?_eq_none hnext,
        List.getElem?_eq_none (Nat.le_refl _)]
      rfl

theorem fill_eq_ok_iff : f.fill index p value = .ok f' ↔ f.slots[index]?.join = none ∧
    f' = { f with slots := f.slots.set index (some value) } := by
  unfold fill
  split
  · rename_i x hslot
    simp [hslot]
  · rename_i hslot
    have hnone : f.slots[index]?.join = none := by
      cases h : f.slots[index]? with
      | none => rfl
      | some slot =>
          cases slot with
          | none => rfl
          | some x => exact absurd h (hslot x)
    simp [hnone, eq_comm]

theorem addToRest_eq_ok_iff : f.addToRest p value = .ok f' ↔ f.restNamed = false ∧
    f' = { f with rest := f.rest ++ [value] } := by
  unfold addToRest
  cases f.restNamed with
  | true => simp
  | false =>
      simp only [Bool.false_eq_true, if_false, Except.ok.injEq, true_and]
      exact eq_comm

theorem nameRest_eq_ok_iff : f.nameRest name value = .ok f' ↔
    (f.restNamed = false ∧ f.rest = []) ∧
      f' = { f with rest := f.rest ++ [value], restNamed := true } := by
  unfold nameRest
  split
  · rename_i h
    simp only [Bool.or_eq_true, Bool.not_eq_true', List.isEmpty_eq_false_iff] at h
    simp only [reduceCtorEq, false_iff]
    rintro ⟨⟨hnamed, hrest⟩, -⟩
    rcases h with h | h
    · rw [hnamed] at h
      cases h
    · exact h hrest
  · rename_i h
    simp only [Bool.or_eq_true, Bool.not_eq_true', List.isEmpty_eq_false_iff, not_or,
      Bool.not_eq_true, not_not] at h
    rw [h.1, h.2, List.nil_append, Except.ok.injEq]
    simpa using eq_comm

/-- **Placing an argument** puts it where it is addressed, if there is room. -/
theorem place_eq_ok_iff : f.place params total a = .ok f' ↔
    ∃ p, params[address params f.next a]? = some p ∧
      f.Admits p (address params f.next a) a ∧ f' = f.put p (address params f.next a) a := by
  cases a with
  | positional value =>
      show f.placePositional params total value = .ok f' ↔ _
      unfold placePositional
      rw [target?_eq]
      generalize address params f.next (.positional value) = index
      cases params[index]? with
      | none => simp
      | some p =>
          simp only [Option.map_some, Option.some.injEq, exists_eq_left', Admits, put]
          cases p.variadic with
          | true =>
              simp [map_eq_ok_iff, addToRest_eq_ok_iff, and_assoc, Argument.isPositional,
                Argument.value]
          | false =>
              simp [map_eq_ok_iff, fill_eq_ok_iff, and_assoc, Argument.isPositional,
                Argument.value]
  | named name value =>
      have haddress : address params f.next (.named name value) =
          params.findIdx fun p => p.name == name := rfl
      show f.placeNamed params name value = .ok f' ↔ _
      unfold placeNamed
      rw [haddress, List.findIdx?_eq_guard_findIdx_lt, Option.guard]
      generalize (params.findIdx fun p => p.name == name) = index
      cases hp : params[index]? with
      | none =>
          have hlength := List.getElem?_eq_none_iff.mp hp
          simp [Nat.not_lt.mpr hlength]
      | some p =>
          obtain ⟨hlt, -⟩ := List.getElem?_eq_some_iff.mp hp
          simp only [hlt, decide_true, if_true, hp, Option.some.injEq, exists_eq_left', Admits, put]
          cases p.variadic with
          | true => simp [nameRest_eq_ok_iff, Argument.isPositional, Argument.value]
          | false => simp [fill_eq_ok_iff, Argument.isPositional, Argument.value]

end Filling

/-! ## Placing all arguments -/

/-- Some argument lands at the first variadic parameter by name. -/
def NamesRest (params : List Param) (arguments : List Argument) : Prop :=
  ∃ d ∈ addressed params 0 arguments, d.2.isPositional = false ∧
    landing params d.1 = params.findIdx Param.variadic

instance (params : List Param) (arguments : List Argument) :
    Decidable (NamesRest params arguments) :=
  inferInstanceAs (Decidable (∃ d ∈ addressed params 0 arguments, _))

/-- Every argument is addressed to a parameter and has room there: one expression for
each parameter that is not variadic, and for the others together any number of positional
ones or a single named one. -/
structure Fits (params : List Param) (arguments : List Argument) : Prop where
  known : ∀ d ∈ addressed params 0 arguments, d.1 < params.length
  single : ∀ i p, params[i]? = some p → p.variadic = false →
    (landed params arguments i).length ≤ 1
  rest : NamesRest params arguments →
    (landed params arguments (params.findIdx Param.variadic)).length ≤ 1

/-- What the binder holds when the arguments are placed. -/
def filled (params : List Param) (arguments : List Argument) : Filling where
  slots := params.mapIdx fun i p =>
    if p.variadic then none else (landed params arguments i).head?
  rest := landed params arguments (params.findIdx Param.variadic)
  restNamed := decide (NamesRest params arguments)
  next := arguments.countP Argument.isPositional

section

variable {params : List Param} {arguments : List Argument} {a : Argument} {p : Param}
  {i total : Nat} {f : Filling}

theorem namesRest_snoc : NamesRest params (arguments ++ [a]) ↔ NamesRest params arguments ∨
    a.isPositional = false ∧
      landing params (address params (arguments.countP Argument.isPositional) a) =
        params.findIdx Param.variadic := by
  simp [NamesRest, addressed_snoc, or_and_right, exists_or]

/-- What is named for the variadic parameters is with what lands there. -/
theorem NamesRest.landed_ne_nil (h : NamesRest params arguments) :
    landed params arguments (params.findIdx Param.variadic) ≠ [] := by
  obtain ⟨d, hd, -, hlanding⟩ := h
  refine List.ne_nil_of_mem (a := d.2.value) (List.mem_map.mpr ⟨d, ?_, rfl⟩)
  exact List.mem_filter.mpr ⟨hd, beq_iff_eq.mpr hlanding⟩

theorem filled_slot (hp : params[i]? = some p) : (filled params arguments).slots[i]?.join =
    if p.variadic then none else (landed params arguments i).head? := by
  simp [filled, hp]

theorem Fits.of_snoc (h : Fits params (arguments ++ [a])) : Fits params arguments where
  known d hd := h.known d (by rw [addressed_snoc]; exact List.mem_append_left _ hd)
  single i p hi hp := by
    have hlength := h.single i p hi hp
    rw [landed_snoc, List.length_append] at hlength
    omega
  rest hnamed := by
    have hlength := h.rest (namesRest_snoc.mpr (Or.inl hnamed))
    rw [landed_snoc, List.length_append] at hlength
    omega

section Last

variable (hi : address params (arguments.countP Argument.isPositional) a = i)
  (hp : params[i]? = some p)

include hi hp

/-- An argument for a variadic parameter lands behind what landed there. -/
theorem landed_last_variadic (hvariadic : p.variadic = true) (j : Nat) :
    landed params (arguments ++ [a]) j = landed params arguments j ++
      if params.findIdx Param.variadic = j then [a.value] else [] := by
  rw [landed_snoc, hi, landing_eq hp, if_pos hvariadic]

/-- An argument for any other parameter lands there. -/
theorem landed_last (hvariadic : p.variadic = false) (j : Nat) :
    landed params (arguments ++ [a]) j = landed params arguments j ++
      if i = j then [a.value] else [] := by
  rw [landed_snoc, hi, landing_eq hp, hvariadic]
  rfl

/-- An argument that has room fits among those before it. -/
theorem Fits.snoc (h : Fits params arguments)
    (hroom : (filled params arguments).Admits p i a) : Fits params (arguments ++ [a]) := by
  have hlt : i < params.length := (List.getElem?_eq_some_iff.mp hp).1
  have hknown : ∀ d ∈ addressed params 0 (arguments ++ [a]), d.1 < params.length := by
    rw [addressed_snoc, hi]
    exact List.forall_mem_append.mpr ⟨h.known, List.forall_mem_singleton.mpr hlt⟩
  unfold Filling.Admits at hroom
  cases hvariadic : p.variadic with
  | true =>
      rw [hvariadic, if_pos rfl] at hroom
      have hnone : ¬ NamesRest params arguments := of_decide_eq_false hroom.1
      refine ⟨hknown, fun j q hj hq => ?_, fun hnamed => ?_⟩
      · rw [landed_last_variadic hi hp hvariadic, if_neg (ne_findIdx hj hq).symm,
          List.append_nil]
        exact h.single j q hj hq
      · obtain ⟨hnamed, -⟩ := (namesRest_snoc.mp hnamed).resolve_left hnone
        rw [landed_last_variadic hi hp hvariadic, if_pos rfl,
          show landed params arguments _ = [] from hroom.2 hnamed]
        exact Nat.le_refl 1
  | false =>
      rw [hvariadic, if_neg Bool.false_ne_true, filled_slot hp, hvariadic,
        if_neg Bool.false_ne_true, List.head?_eq_none_iff] at hroom
      refine ⟨hknown, fun j q hj hq => ?_, fun hnamed => ?_⟩
      · rw [landed_last hi hp hvariadic]
        by_cases hij : i = j
        · subst hij
          simp [hroom]
        · rw [if_neg hij, List.append_nil]
          exact h.single j q hj hq
      · have hother := ne_findIdx hp hvariadic
        have hbefore : NamesRest params arguments := by
          refine (namesRest_snoc.mp hnamed).resolve_right fun hlast => hother ?_
          rw [hi, landing_eq hp, hvariadic] at hlast
          exact hlast.2
        rw [landed_last hi hp hvariadic, if_neg hother, List.append_nil]
        exact h.rest hbefore

/-- An argument that fits among those before it has room. -/
theorem Fits.admits (h : Fits params (arguments ++ [a])) :
    (filled params arguments).Admits p i a := by
  unfold Filling.Admits
  cases hvariadic : p.variadic with
  | true =>
      have hlength := h.rest
      rw [landed_last_variadic hi hp hvariadic, if_pos rfl, List.length_append] at hlength
      have hnil (hnamed : NamesRest params (arguments ++ [a])) :
          landed params arguments (params.findIdx Param.variadic) = [] :=
        List.eq_nil_of_length_eq_zero (by have := hlength hnamed; simpa using this)
      refine ⟨decide_eq_false fun hnamed => ?_, fun hnamed => ?_⟩
      · exact hnamed.landed_ne_nil (hnil (namesRest_snoc.mpr (Or.inl hnamed)))
      · refine hnil (namesRest_snoc.mpr (Or.inr ⟨hnamed, ?_⟩))
        rw [hi, landing_eq hp, if_pos hvariadic]
  | false =>
      rw [if_neg Bool.false_ne_true, filled_slot hp, hvariadic, if_neg Bool.false_ne_true,
        List.head?_eq_none_iff]
      have hlength := h.single i p hp hvariadic
      rw [landed_last hi hp hvariadic, if_pos rfl, List.length_append] at hlength
      exact List.eq_nil_of_length_eq_zero (by simpa using hlength)

/-- Placing the argument puts it where it lands. -/
theorem filled_snoc (hroom : (filled params arguments).Admits p i a) :
    filled params (arguments ++ [a]) = (filled params arguments).put p i a := by
  have hnext : (arguments ++ [a]).countP Argument.isPositional =
      if a.isPositional then arguments.countP Argument.isPositional + 1
      else arguments.countP Argument.isPositional := by
    rw [List.countP_append, List.countP_singleton]
    split <;> rfl
  have hnamed : decide (NamesRest params (arguments ++ [a])) =
      (decide (NamesRest params arguments) || (p.variadic && !a.isPositional)) := by
    have hiff : NamesRest params (arguments ++ [a]) ↔ _ := namesRest_snoc
    rw [hi, landing_eq hp] at hiff
    rw [Bool.eq_iff_iff, decide_eq_true_iff, hiff]
    cases hvariadic : p.variadic with
    | true => simp
    | false => simp [ne_findIdx hp hvariadic]
  have hslot (j : Nat) (q : Param) (hj : params[j]? = some q) (hq : q.variadic = false)
      (hij : p.variadic = true ∨ i ≠ j) :
      landed params (arguments ++ [a]) j = landed params arguments j := by
    cases hvariadic : p.variadic with
    | true =>
        rw [landed_last_variadic hi hp hvariadic, if_neg (ne_findIdx hj hq).symm,
          List.append_nil]
    | false =>
        rw [landed_last hi hp hvariadic, if_neg (hij.resolve_left (by simp [hvariadic])),
          List.append_nil]
  unfold Filling.Admits at hroom
  unfold filled Filling.put
  rw [hnext, hnamed, Filling.mk.injEq]
  refine ⟨List.ext_getElem? fun j => ?_, ?_, rfl, rfl⟩
  · cases hvariadic : p.variadic with
    | true =>
        rw [if_pos rfl, List.getElem?_mapIdx, List.getElem?_mapIdx]
        refine Option.map_congr fun q hj => ?_
        cases hq : q.variadic with
        | true => rfl
        | false => rw [hslot j q hj hq (Or.inl hvariadic)]
    | false =>
        rw [if_neg Bool.false_ne_true, List.getElem?_set, List.length_mapIdx,
          List.getElem?_mapIdx, List.getElem?_mapIdx]
        by_cases hij : i = j
        · subst hij
          rw [if_pos rfl, if_pos (List.getElem?_eq_some_iff.mp hp).1, hp, Option.map_some,
            hvariadic, if_neg Bool.false_ne_true, landed_last hi hp hvariadic, if_pos rfl]
          rw [hvariadic, if_neg Bool.false_ne_true, filled_slot hp, hvariadic,
            if_neg Bool.false_ne_true, List.head?_eq_none_iff] at hroom
          rw [hroom]
          rfl
        · rw [if_neg hij]
          refine Option.map_congr fun q hj => ?_
          cases hq : q.variadic with
          | true => rfl
          | false => rw [hslot j q hj hq (Or.inr hij)]
  · cases hvariadic : p.variadic with
    | true => rw [landed_last_variadic hi hp hvariadic, if_pos rfl, if_pos rfl]
    | false =>
        rw [landed_last hi hp hvariadic, if_neg (ne_findIdx hp hvariadic), List.append_nil]
        rfl

end Last

/-- **The arguments can be placed just when they fit**, and where they land tells what
the binder then holds. -/
theorem place_all_eq_ok_iff :
    arguments.foldlM (Filling.place params total) (Filling.start params) = .ok f ↔
      Fits params arguments ∧ f = filled params arguments := by
  induction arguments using List.reverseRecOn generalizing f with
  | nil =>
      have hstart : filled params [] = Filling.start params := by
        simp only [Filling.start, filled, Filling.mk.injEq]
        refine ⟨?_, rfl, ?_, rfl⟩
        · exact List.ext_getElem (by simp) fun i _ _ => by simp [landed, addressed]
        · simp [NamesRest, addressed]
      have hfits : Fits params [] :=
        ⟨nofun, fun _ _ _ _ => Nat.zero_le 1, fun _ => Nat.zero_le 1⟩
      rw [hstart]
      simp [hfits, pure, Except.pure, eq_comm]
  | append_singleton arguments a ih =>
      rw [List.foldlM_append, bind_eq_ok_iff]
      simp only [ih, List.foldlM_cons, List.foldlM_nil, bind_pure, Filling.place_eq_ok_iff]
      constructor
      · rintro ⟨g, ⟨hfits, rfl⟩, p, hp, hroom, rfl⟩
        exact ⟨hfits.snoc rfl hp hroom, (filled_snoc rfl hp hroom).symm⟩
      · rintro ⟨hfits, rfl⟩
        have hlast : address params (arguments.countP Argument.isPositional) a <
            params.length := hfits.known (_, a) (by
            rw [addressed_snoc]
            exact List.mem_append_right _ (List.mem_singleton_self _))
        have hp := List.getElem?_eq_getElem hlast
        have hroom := hfits.admits rfl hp
        exact ⟨_, ⟨hfits.of_snoc, rfl⟩, _, hp, hroom, filled_snoc rfl hp hroom⟩

end

end Binding

end Templating
