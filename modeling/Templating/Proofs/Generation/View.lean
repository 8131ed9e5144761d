import Templating.Proofs.Generation.Calls

/-!
# Linkers seen through a view

Two linkers may keep quite different states. If a view of the state of one is
enough for the other, that is, if the other does on the view what the first does
on the state, then they generate the same unit or fail with the same failure, and
what one has come to is the view of what the other has come to. The answers of
the first may rest on a property of its state, as long as every call it answers
keeps that property.
-/

namespace Templating.Generation

open Scan (OfContent Signal)

variable {σ τ : Type}

/-- In the template `caller`, the linker `plain` does on the view what `linker`
does on a state with the property `I`, which calls of `callable` templates keep
unless they fail. -/
structure Shows (linker : Linker σ) (plain : Linker τ) (view : σ → τ) (caller : Name)
    (callable : List Name) (I : σ → Prop) : Prop where
  resolve : ∀ s call, I s → call.caller = caller → call.name ∈ callable →
    (plain.resolve call).run (view s) = Prod.map id view ((linker.resolve call).run s) ∧
      (((linker.resolve call).run s).1.isOk = true → I ((linker.resolve call).run s).2)
  intercept : ∀ s place, I s →
    (plain.intercept place).run (view s) = Prod.map id view ((linker.intercept place).run s) ∧
      I ((linker.intercept place).run s).2

variable {setting : Setting} {linker : Linker σ} {plain : Linker τ} {view : σ → τ}
  {caller : Name} {callable : List Name} {I : σ → Prop}

variable (setting) in
/-- Taking an event of the content shows through the view. -/
theorem Progress.takeEvent_shows (h : Shows linker plain view caller callable I) {p : Progress}
    (hcaller : p.address.template = caller) {e : Event} (he : OfContent e)
    (hcallable : ∀ n ∈ calleeOf caller e, n ∈ callable) {s : σ} (hs : p.failure? = none → I s) :
    (p.takeEvent setting plain e).run (view s) =
        Prod.map id view ((p.takeEvent setting linker e).run s) ∧
      (((p.takeEvent setting linker e).run s).1.failure? = none →
        I ((p.takeEvent setting linker e).run s).2) := by
  subst hcaller
  by_cases hp : p.failure? = none
  · specialize hs hp
    rcases Progress.takeEvent_content setting hp he with
      ⟨-, q, htake⟩ | ⟨-, place, htake⟩ | ⟨call, arguments, hcaller, hcallee, htake⟩
    · rw [htake, htake]
      exact ⟨rfl, fun _ => hs⟩
    · obtain ⟨hshown, hkept⟩ := h.intercept s place hs
      rw [htake, htake, hshown]
      exact ⟨rfl, fun _ => hkept⟩
    · obtain ⟨hshown, hkept⟩ := h.resolve s call hs hcaller (hcallable _ hcallee)
      rw [htake, htake, hshown]
      refine ⟨rfl, ?_⟩
      intro hnone
      apply hkept
      -- A call that is not answered fails the unit.
      generalize (linker.resolve call).run s = reached at hnone ⊢
      obtain ⟨answer, s'⟩ := reached
      cases answer with
      | error failure => cases hnone
      | ok callee => rfl
  · -- Once a call has failed, the linker is not asked any more.
    have hstopped := Option.isSome_iff_ne_none.mpr hp
    rw [takeEvent_stopped hstopped, takeEvent_stopped hstopped]
    exact ⟨rfl, hs⟩

variable (setting) in
/-- **A run over the content shows through the view.** -/
theorem run_shows (h : Shows linker plain view caller callable I) (signals : List Signal)
    (hcontent : ∀ e ∈ signals.filterMap Signal.event?, OfContent e)
    (hcallable : ∀ n ∈ (signals.filterMap Signal.event?).filterMap (calleeOf caller),
      n ∈ callable) {p : Progress} (hcaller : p.address.template = caller) {s : σ}
    (hs : p.failure? = none → I s) :
    (signals.foldlM (Progress.take setting plain) p).run (view s) =
        Prod.map id view ((signals.foldlM (Progress.take setting linker) p).run s) ∧
      (((signals.foldlM (Progress.take setting linker) p).run s).1.failure? = none →
        I ((signals.foldlM (Progress.take setting linker) p).run s).2) := by
  induction signals generalizing p s with
  | nil => exact ⟨rfl, hs⟩
  | cons x signals ih =>
      cases x with
      | problem problem =>
          exact ih hcontent hcallable (p := p.addDiagnostic problem.diagnostic) hcaller hs
      | event e =>
          obtain ⟨he, hrest⟩ := List.forall_mem_cons.mp
            (show ∀ x ∈ e :: signals.filterMap Signal.event?, OfContent x from hcontent)
          rw [callees_cons] at hcallable
          obtain ⟨hshown, hkept⟩ := Progress.takeEvent_shows setting h hcaller he
            (fun n hn => hcallable n (List.mem_append_left _ (Option.mem_toList.mpr hn))) hs
          have haddress := Progress.takeEvent_address setting linker p e s
          rw [run_cons, run_cons]
          simp only [Progress.take]
          rw [hshown]
          refine ih hrest (fun n hn => hcallable n (List.mem_append_right _ hn)) ?_ hkept
          show ((p.takeEvent setting linker e).run s).1.address.template = caller
          rw [haddress]
          exact hcaller

variable (setting) in
/-- **Generation shows through the view**, whether it comes to a unit or fails. -/
theorem generate_shows {address : Address} {source : String}
    (h : Shows linker plain view address.template (callees setting address.template source) I)
    {s : σ}
    (hdeclare : ((plain.declare address.template
        (declared setting address.template source)).run (view s)).2 =
      view ((linker.declare address.template (declared setting address.template source)).run s).2)
    (hs : I ((linker.declare address.template
      (declared setting address.template source)).run s).2) :
    (generate setting plain address source).run (view s) =
      Prod.map id view ((generate setting linker address source).run s) := by
  obtain ⟨p, content, -, haddress, -, hcontent, hcallees, hrun⟩ :=
    progress_content setting address source
  have hshown := (run_shows setting h content hcontent
    (by rw [hcallees]; exact fun n hn => hn) (by rw [haddress]) fun _ => hs).1
  rw [← hdeclare, ← hrun, ← hrun] at hshown
  apply Prod.ext
  · rw [generate_fst, hshown, Prod.map_fst, Prod.map_fst, generate_fst, id_eq, id_eq]
  · rw [generate_snd, hshown, Prod.map_snd, Prod.map_snd, generate_snd]

end Templating.Generation
