import Templating.Proofs.Binding.Delivery

/-!
# What parameters are bound to

When arguments are bound, each parameter is bound to the expressions that land at it, in
order, or to its default if it is not variadic and none does; so nothing that was passed
is lost and nothing is used twice. Every expression is then where it was addressed, and
every default is used where nothing was, unless the call names a variadic parameter
behind the first or a variadic parameter has a default.
-/

namespace Templating

/-- The expressions that a parameter is bound to. -/
def Bound.expressions : Bound → List String
  | single value => [value]
  | variadic values => values

/-- The expressions, or the default if there are none. -/
def Param.orDefault (p : Param) (values : List String) : List String :=
  if values = [] then p.default?.toList else values

namespace Binding

/-- What a parameter is bound to when these expressions land at it. -/
inductive Takes (p : Param) : List String → Bound → Prop where
  | single (x : String) : p.variadic = false → Takes p [x] (.single x)
  | omitted (x : String) : p.variadic = false → p.default? = some x → Takes p [] (.single x)
  | variadic (xs : List String) : p.variadic = true → Takes p xs (.variadic xs)

section

variable {params : List Param} {arguments : List Argument} {p : Param} {i : Nat}
  {slots : List (Option String)} {rest : List String} {bound : List Bound} {b : Bound}

theorem collect_cons (h : collect (p :: params) slots rest = .ok bound) :
    ∃ b bound', bound = b :: bound' ∧
      collect params slots.tail (if p.variadic then [] else rest) = .ok bound' ∧
      Takes p (if p.variadic then rest else slots.head?.join.toList) b := by
  unfold collect at h
  cases hp : p.variadic with
  | true =>
      simp only [hp, if_true, bind_pure_comp, map_eq_ok_iff] at h ⊢
      obtain ⟨bound', hbound', rfl⟩ := h
      exact ⟨_, bound', rfl, hbound', .variadic rest hp⟩
  | false =>
      simp only [hp, Bool.false_eq_true, if_false, bind_pure_comp] at h ⊢
      split at h
      · rename_i value hvalue
        obtain ⟨bound', hbound', rfl⟩ := map_eq_ok_iff.mp h
        rw [hvalue]
        exact ⟨_, bound', rfl, hbound', .single value hp⟩
      · rename_i value hnone hdefault
        obtain ⟨bound', hbound', rfl⟩ := map_eq_ok_iff.mp h
        rw [hnone]
        exact ⟨_, bound', rfl, hbound', .omitted value hp hdefault⟩
      · cases h

/-- Of the variadic parameters the first takes `rest`. -/
theorem collect_entries (h : collect params slots rest = .ok bound) :
    bound.length = params.length ∧ ∀ i p, params[i]? = some p → ∃ b, bound[i]? = some b ∧
      Takes p (if p.variadic then if params.findIdx Param.variadic = i then rest else []
        else slots[i]?.join.toList) b := by
  induction params generalizing slots rest bound with
  | nil =>
      cases h
      exact ⟨rfl, nofun⟩
  | cons q params ih =>
      obtain ⟨b, bound', rfl, hbound', hb⟩ := collect_cons h
      obtain ⟨hlength, hentries⟩ := ih hbound'
      refine ⟨congrArg (· + 1) hlength, fun i p hp => ?_⟩
      cases i with
      | zero =>
          obtain rfl := Option.some.inj hp
          refine ⟨b, rfl, ?_⟩
          cases hq : q.variadic with
          | true => simpa [hq, List.findIdx_cons] using hb
          | false => simpa [hq, List.head?_eq_getElem?] using hb
      | succ i =>
          obtain ⟨b', hb', htakes⟩ := hentries i p hp
          refine ⟨b', hb', ?_⟩
          rw [List.getElem?_tail] at htakes
          cases hq : q.variadic with
          | true => simpa [hq, List.findIdx_cons] using htakes
          | false => simpa [hq, List.findIdx_cons] using htakes

theorem Takes.expressions {values : List String} (h : Takes p values b) :
    b.expressions = if p.variadic then values else p.orDefault values := by
  cases h with
  | single x hp => rw [hp]; rfl
  | omitted x hp hdefault =>
      rw [hp, if_neg Bool.false_ne_true, Param.orDefault, if_pos rfl, hdefault]
      rfl
  | variadic _ hp => rw [hp]; rfl

/-! ## Where arguments land and where they are addressed -/

theorem map_addressed (k : Nat) (arguments : List Argument) :
    (addressed params k arguments).map Prod.snd = arguments := by
  induction arguments generalizing k with
  | nil => rfl
  | cons a arguments ih => rw [addressed, List.map_cons, ih]

/-- Sorted by where they land, the arguments are still all there, each of them once. -/
theorem flatMap_filter_perm {α : Type} (key : α → Nat) {n : Nat} {xs : List α}
    (h : ∀ x ∈ xs, key x < n) :
    ((List.range n).flatMap fun i => xs.filter fun x => key x == i).Perm xs := by
  induction n generalizing xs with
  | zero =>
      obtain rfl : xs = [] := List.eq_nil_iff_forall_not_mem.mpr fun x hx => by
        cases h x hx
      exact .nil
  | succ n ih =>
      have hothers := @ih (xs.filter fun x => !(key x == n)) fun x hx => by
        obtain ⟨hx, hne⟩ := List.mem_filter.mp hx
        have hlt := h x hx
        have hother : key x ≠ n := by simpa using hne
        omega
      have hsame : ((List.range n).flatMap fun i => xs.filter fun x => key x == i) =
          (List.range n).flatMap fun i =>
            (xs.filter fun x => !(key x == n)).filter fun x => key x == i := by
        rw [List.flatMap_def, List.flatMap_def]
        refine congrArg List.flatten (List.map_congr_left fun i hi => ?_)
        have hin : i < n := List.mem_range.mp hi
        rw [List.filter_filter]
        refine List.filter_congr fun x _ => ?_
        by_cases hx : key x = i
        · simp [hx, Nat.ne_of_lt hin]
        · simp [hx]
      rw [List.range_succ, List.flatMap_append, List.flatMap_singleton, hsame]
      refine (hothers.append_right _).trans ?_
      exact List.perm_append_comm.trans (List.filter_append_perm (fun x => key x == n) xs)

theorem landing_lt (h : i < params.length) : landing params i < params.length := by
  rw [landing_eq (List.getElem?_eq_getElem h)]
  split
  · rename_i hvariadic
    exact List.findIdx_lt_length_of_exists ⟨_, List.getElem_mem h, hvariadic⟩
  · exact h

theorem Fits.landed_perm (h : Fits params arguments) :
    ((List.range params.length).flatMap (landed params arguments)).Perm
      (arguments.map Argument.value) := by
  have hall := flatMap_filter_perm (fun d => landing params d.1) fun d hd =>
    landing_lt (h.known d hd)
  have hvalues := hall.map fun d => d.2.value
  rw [List.map_flatMap] at hvalues
  have hall' : (addressed params 0 arguments).map (fun d => d.2.value) =
      arguments.map Argument.value := by
    conv => rhs; rw [← @map_addressed params 0 arguments, List.map_map]
    rfl
  exact hall' ▸ hvalues

/-- Where all arguments land as addressed, the two are the same. -/
theorem landed_eq_sent (h : ∀ d ∈ addressed params 0 arguments, landing params d.1 = d.1)
    (i : Nat) : landed params arguments i = sent params arguments i := by
  unfold landed sent
  congr 1
  refine List.filter_congr fun d hd => ?_
  rw [h d hd]

/-- Behind the first variadic parameter nothing lands at a variadic one. -/
theorem Fits.landed_later (h : Fits params arguments) (hp : params[i]? = some p)
    (hvariadic : p.variadic = true) (hi : params.findIdx Param.variadic ≠ i) :
    landed params arguments i = [] := by
  unfold landed
  rw [List.map_eq_nil_iff, List.filter_eq_nil_iff]
  rintro d hd hlanding
  have hlt := h.known d hd
  rw [beq_iff_eq, landing_eq (List.getElem?_eq_getElem hlt)] at hlanding
  split at hlanding
  · exact hi hlanding
  · rename_i hother
    subst hlanding
    rw [List.getElem?_eq_getElem hlt, Option.some.injEq] at hp
    rw [hp] at hother
    exact hother hvariadic

/-- **What is bound**: each parameter takes what lands at it. -/
theorem entries_of_bind (h : bind params arguments = .ok bound) :
    Fits params arguments ∧ bound.length = params.length ∧
      ∀ i p, params[i]? = some p → ∃ b, bound[i]? = some b ∧
        Takes p (landed params arguments i) b := by
  obtain ⟨f, hplace, hcollect⟩ := bind_eq_ok_iff.mp h
  obtain ⟨hfits, rfl⟩ := place_all_eq_ok_iff.mp hplace
  obtain ⟨hlength, hentries⟩ := collect_entries hcollect
  refine ⟨hfits, hlength, fun i p hp => ?_⟩
  obtain ⟨b, hb, htakes⟩ := hentries i p hp
  refine ⟨b, hb, ?_⟩
  cases hvariadic : p.variadic with
  | true =>
      rw [hvariadic, if_pos rfl] at htakes
      by_cases hi : params.findIdx Param.variadic = i
      · rw [if_pos hi] at htakes
        exact hi ▸ htakes
      · rw [if_neg hi] at htakes
        rwa [hfits.landed_later hp hvariadic hi]
  | false =>
      rw [hvariadic, if_neg Bool.false_ne_true, filled_slot hp, hvariadic,
        if_neg Bool.false_ne_true] at htakes
      have hlength := hfits.single i p hp hvariadic
      match hlanded : landed params arguments i with
      | [] => simpa [hlanded] using htakes
      | [x] => simpa [hlanded] using htakes
      | x :: y :: xs =>
          rw [hlanded] at hlength
          simp at hlength

/-- An argument that is not bound where it was addressed is missed there. -/
theorem Fits.landing_eq_of_entries (h : Fits params arguments)
    (hentries : ∀ (i : Nat) (p : Param), params[i]? = some p → ∃ b : Bound,
      Takes p (landed params arguments i) b ∧
        b.expressions = p.orDefault (sent params arguments i)) {d : Nat × Argument}
    (hd : d ∈ addressed params 0 arguments) : landing params d.1 = d.1 := by
  obtain ⟨p, hp⟩ : ∃ p, params[d.1]? = some p :=
    ⟨_, List.getElem?_eq_getElem (h.known d hd)⟩
  cases hvariadic : p.variadic with
  | false => rw [landing_eq hp, hvariadic, if_neg Bool.false_ne_true]
  | true =>
      rw [landing_eq hp, hvariadic, if_pos rfl]
      by_contra hother
      obtain ⟨b, htakes, hb⟩ := hentries d.1 p hp
      have hsent : sent params arguments d.1 ≠ [] :=
        List.ne_nil_of_mem (a := d.2.value)
          (List.mem_map.mpr ⟨d, List.mem_filter.mpr ⟨hd, beq_self_eq_true _⟩, rfl⟩)
      rw [htakes.expressions, hvariadic, if_pos rfl, h.landed_later hp hvariadic hother,
        Param.orDefault, if_neg hsent] at hb
      exact hsent hb.symm

end

/-- **Every expression is bound where it lands, and it lands where it was addressed** but
for what is named for a variadic parameter behind the first. Then, and if no default of a
variadic parameter would be used, each parameter is bound to what was addressed to it, or
to its default. -/
theorem bound_where_addressed_iff (params : List Param) (raw : List String)
    {bound : List Bound} (h : bind params (raw.map Argument.classify) = .ok bound) :
    let arguments := raw.map Argument.classify
    bound.length = params.length ∧
    (∀ (i : Nat) (p : Param), params[i]? = some p → ∃ b : Bound, bound[i]? = some b ∧
      Takes p (landed params arguments i) b) ∧
    ((List.range params.length).flatMap (landed params arguments)).Perm
      (arguments.map Argument.value) ∧
    ((∀ (i : Nat) (p : Param), params[i]? = some p → ∃ b : Bound, bound[i]? = some b ∧
        b.expressions = p.orDefault (sent params arguments i)) ↔
      (∀ d ∈ addressed params 0 arguments, landing params d.1 = d.1) ∧
      ∀ (i : Nat) (p : Param), params[i]? = some p → p.variadic = true →
        p.default? ≠ none → sent params arguments i ≠ []) := by
  intro arguments
  obtain ⟨hfits, hlength, hentries⟩ := entries_of_bind h
  refine ⟨hlength, hentries, hfits.landed_perm, fun hall => ?_, ?_⟩
  · have hlanding : ∀ d ∈ addressed params 0 arguments, landing params d.1 = d.1 := by
      intro d hd
      refine hfits.landing_eq_of_entries (fun i p hp => ?_) hd
      obtain ⟨b, hb, htakes⟩ := hentries i p hp
      obtain ⟨b', hb', hexpressions⟩ := hall i p hp
      rw [hb, Option.some.injEq] at hb'
      exact ⟨b, htakes, hb' ▸ hexpressions⟩
    refine ⟨hlanding, fun i p hp hvariadic hdefault hnone => ?_⟩
    obtain ⟨b, hb, htakes⟩ := hentries i p hp
    obtain ⟨b', hb', hexpressions⟩ := hall i p hp
    rw [hb, Option.some.injEq] at hb'
    rw [← hb', htakes.expressions, hvariadic, if_pos rfl, landed_eq_sent hlanding, hnone,
      Param.orDefault, if_pos rfl] at hexpressions
    exact hdefault (Option.toList_eq_nil_iff.mp hexpressions.symm)
  · rintro ⟨hlanding, hdefaults⟩ i p hp
    obtain ⟨b, hb, htakes⟩ := hentries i p hp
    refine ⟨b, hb, ?_⟩
    rw [htakes.expressions, landed_eq_sent hlanding]
    cases hvariadic : p.variadic with
    | false => rfl
    | true =>
        rw [if_pos rfl, Param.orDefault]
        split
        · rename_i hnone
          have hdefault : p.default? = none := by
            by_contra hsome
            exact hdefaults i p hp hvariadic hsome hnone
          rw [hdefault, hnone]
          rfl
        · rfl

theorem bound_where_addressed_iff_mixed :
    let params : List Param :=
      [{ name := "a" }, { name := "b", default? := some "0" },
        { name := "c", variadic := true }]
    let arguments := ["x", "c = y"].map Argument.classify
    let bound : List Bound := [.single "x", .single "0", .variadic ["y"]]
    bind params arguments = .ok bound ∧
      ∀ (i : Nat) (p : Param), params[i]? = some p → ∃ b : Bound, bound[i]? = some b ∧
        b.expressions = p.orDefault (sent params arguments i) := by
  intro params arguments bound
  have h : bind params arguments = .ok bound := by decide +kernel
  refine ⟨h, (bound_where_addressed_iff params ["x", "c = y"] h).2.2.2.mpr ?_⟩
  have hnone : ∀ p ∈ params, p.variadic = true → p.default? = none := by decide +kernel
  refine ⟨by decide +kernel, fun i p hp hvariadic hdefault => ?_⟩
  exact absurd (hnone p (List.mem_of_getElem? hp) hvariadic) hdefault

/-- An expression that is named for the second of two variadic parameters is bound to the
first. -/
theorem not_bound_where_addressed : ¬ ∀ (params : List Param) (raw : List String)
    (bound : List Bound), bind params (raw.map Argument.classify) = .ok bound →
      ∀ (i : Nat) (p : Param), params[i]? = some p → ∃ b : Bound, bound[i]? = some b ∧
        b.expressions = p.orDefault (sent params (raw.map Argument.classify) i) := by
  intro h
  obtain ⟨b, hb, hexpressions⟩ :=
    h [{ name := "a", variadic := true }, { name := "b", variadic := true }] ["b = 1"]
      [.variadic ["1"], .variadic []] (by decide +kernel) 1 _ rfl
  obtain rfl := Option.some.inj hb
  revert hexpressions
  decide +kernel

end Binding

end Templating
