import Templating.Proofs.Session.Run

/-!
# Invalidation

An invalidated template is out of date, and so are those that depended on it then.
Each of them stays so until a request that lists it is served: nothing else takes
the mark away, neither a request for others, nor a request that fails, nor that the
session notes other dependencies in the meantime. A served request has fetched what
it is about, so nothing that it lists counts as changed behind it.
-/

namespace Templating.Session

/-- A request that lists a template is served. -/
def Operation.Settles (s : Session Memory) (n : Name) (op : Operation) : Prop :=
  op.Requests n ∧ op.Succeeds s

/-- No request of a run that lists a template is served. -/
def Unsettled (n : Name) : Session Memory → List Operation → Prop
  | _, [] => True
  | s, op :: ops => ¬op.Settles s n ∧ Unsettled n (s.perform op) ops

instance decidableUnsettled (n : Name) : (s : Session Memory) → (ops : List Operation) →
    Decidable (Unsettled n s ops)
  | _, [] => isTrue trivial
  | s, op :: ops =>
      have := decidableUnsettled n (s.perform op) ops
      inferInstanceAs (Decidable (¬(op.Requests n ∧ op.Succeeds s) ∧
        Unsettled n (s.perform op) ops))

variable {s : Session Memory} {op : Operation} {ops : List Operation} {n : Name}

/-- A request that fails leaves everything out of date that was. -/
theorem stale_of_error (h : s.dependencies.Distinct) {names : List Name} {failure : Failure}
    (hfailed : ((generate names).run s).1 = .error failure) (hn : n ∈ s.stale) :
    n ∈ ((generate names).run s).2.stale := by
  obtain ⟨done, name, rest, r, -, -, -, htracks, hsession⟩ := tracks_of_error h hfailed
  rw [hsession]
  exact htracks.kept n hn

/-- What is out of date stays so unless a request that lists it is served. -/
theorem stale_perform (h : s.dependencies.Distinct) (hop : ¬op.Settles s n) (hn : n ∈ s.stale) :
    n ∈ (s.perform op).stale := by
  cases op with
  | insert _ _ | remove _ => exact hn
  | invalidate name => exact (mem_invalidate_stale h).mpr (Or.inl hn)
  | generate names =>
      show n ∈ ((generate names).run s).2.stale
      cases hanswer : ((generate names).run s).1 with
      | error failure => exact stale_of_error h hanswer hn
      | ok batch =>
          have hunlisted : n ∉ names := fun hlisted => hop ⟨hlisted, batch, hanswer⟩
          exact ((settled_of_ok h hanswer).stale n).mpr ⟨hunlisted, Or.inl hn⟩

theorem stale_performAll (h : s.dependencies.Distinct) (hops : Unsettled n s ops)
    (hn : n ∈ s.stale) : n ∈ (s.performAll ops).stale := by
  induction ops generalizing s with
  | nil => exact hn
  | cons op ops ih => exact ih (distinct_perform h op) hops.2 (stale_perform h hops.1 hn)

/-- **An invalidation stays until it is settled**, in every run. The invalidated
template and those that depended on it count as changed as long as no request that
lists them is served, and behind a request that is served no template that it lists
counts as changed. -/
theorem invalidation_settled (c : Configuration) (library : Memory) (before : List Operation) :
    let s := (fresh c library).performAll before
    (∀ name n, n = name ∨ DependedOn s n name →
        ∀ since, Unsettled n (s.perform (.invalidate name)) since →
          ((s.perform (.invalidate name)).performAll since).hasChanged n = true) ∧
      ∀ names, (Operation.generate names).Succeeds s →
        ∀ n ∈ names, (s.perform (.generate names)).hasChanged n = false := by
  intro s
  have hdistinct : s.dependencies.Distinct := distinct_performAll Table.distinct_empty before
  constructor
  · intro name n hn since hsince
    have hstale : n ∈ (s.perform (.invalidate name)).stale :=
      (mem_invalidate_stale hdistinct).mpr (Or.inr hn)
    have hkept := stale_performAll (distinct_perform hdistinct _) hsince hstale
    exact hasChanged_iff.mpr (Or.inl hkept)
  · rintro names ⟨batch, hbatch⟩ n hn
    exact (settled_of_ok hdistinct hbatch).hasChanged_listed hn ((served_of_ok hbatch).noted n hn)

/-- A page that no longer calls an invalidated tag stays out of date when another page
is requested and when a request that lists it fails, though that one notes that the
page does not depend on the tag any more; then it is requested alone. -/
theorem invalidation_settled_failed :
    let memory : Memory := ((({} : Memory).insert ⟨"tag/card.stn"⟩ "card").insert ⟨"a.stn"⟩
      "@tag.card()").insert ⟨"b.stn"⟩ "@tag.card()"
    let before : List Operation := [.generate [⟨"a.stn"⟩]]
    let since : List Operation :=
      [.insert ⟨"a.stn"⟩ "a", .generate [⟨"b.stn"⟩], .generate [⟨"a.stn"⟩, ⟨"c.stn"⟩]]
    let s := (fresh {} memory).performAll before
    let s' := (s.perform (.invalidate ⟨"tag/card.stn"⟩)).performAll since
    DependedOn s ⟨"a.stn"⟩ ⟨"tag/card.stn"⟩ ∧ ¬DependedOn s' ⟨"a.stn"⟩ ⟨"tag/card.stn"⟩ ∧
      Unsettled ⟨"a.stn"⟩ (s.perform (.invalidate ⟨"tag/card.stn"⟩)) since ∧
      s'.hasChanged ⟨"a.stn"⟩ = true ∧ (Operation.generate [⟨"a.stn"⟩]).Succeeds s' ∧
      (s'.perform (.generate [⟨"a.stn"⟩])).hasChanged ⟨"a.stn"⟩ = false := by
  intro memory before since s s'
  have hdepended : DependedOn s ⟨"a.stn"⟩ ⟨"tag/card.stn"⟩ := by
    obtain ⟨d, hd, horder⟩ := Option.map_eq_some_iff.mp
      (show (s.dependencies.get? ⟨"a.stn"⟩).map Dependencies.order = some [⟨"tag/card.stn"⟩] by
        decide +kernel)
    exact ⟨d, hd, by rw [horder]; exact List.mem_singleton_self _⟩
  have hindependent : ¬DependedOn s' ⟨"a.stn"⟩ ⟨"tag/card.stn"⟩ := by
    rintro ⟨d, hd, hmem⟩
    have hnone : s'.dependencies.get? ⟨"a.stn"⟩ = some .empty := by decide +kernel
    rw [hnone] at hd
    obtain rfl := Option.some.inj hd
    cases hmem
  have hunsettled : Unsettled ⟨"a.stn"⟩ (s.perform (.invalidate ⟨"tag/card.stn"⟩)) since := by
    decide +kernel
  have hserved : (Operation.generate [⟨"a.stn"⟩]).Succeeds s' := by decide +kernel
  have hrun : (fresh {} memory).performAll (before ++ .invalidate ⟨"tag/card.stn"⟩ :: since) =
      s' := by
    rw [performAll_append, performAll_cons]
  have hchanged := (invalidation_settled {} memory before).1 _ _ (Or.inr hdepended) since hunsettled
  have hsettled := (invalidation_settled {} memory
    (before ++ .invalidate ⟨"tag/card.stn"⟩ :: since)).2
  rw [hrun] at hsettled
  exact ⟨hdepended, hindependent, hunsettled, hchanged, hserved,
    hsettled _ hserved _ (List.mem_singleton_self _)⟩

end Templating.Session
