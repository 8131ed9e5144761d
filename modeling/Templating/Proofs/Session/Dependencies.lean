import Templating.Proofs.Session.Run

/-!
# Noted dependencies

A served request notes for each of its names what calls lead to from there. For any
other template the session still has what the last request that listed it has noted.
Looked at the other way round, from a template to those that use it, this is what
decides whom a change concerns.
-/

namespace Templating

/-- Sorted names are in order. -/
theorem Name.pairwise_sort (names : List Name) :
    (Name.sort names).Pairwise fun a b => a.text ≤ b.text := by
  have htrans (a b c : Name) (hab : a.precedes b = true) (hbc : b.precedes c = true) :
      a.precedes c = true := by
    simp only [precedes, decide_eq_true_eq] at hab hbc ⊢
    exact String.le_trans hab hbc
  have htotal (a b : Name) : (a.precedes b || b.precedes a) = true := by
    simp only [precedes, Bool.or_eq_true, decide_eq_true_eq]
    exact String.le_total a.text b.text
  refine (List.pairwise_mergeSort htrans htotal names).imp ?_
  intro a b hab
  simpa only [precedes, decide_eq_true_eq] using hab

theorem Name.nodup_sort {names : List Name} (h : names.Nodup) : (Name.sort names).Nodup :=
  (List.mergeSort_perm names Name.precedes).nodup_iff.mpr h

namespace Session

/-- The users of a template are listed in order, each once. -/
theorem templatesUsing_increasing {s : Session Memory} (h : s.dependencies.Distinct) (name : Name) :
    (s.templatesUsing name).Pairwise fun a b => a.text < b.text := by
  have hnodup : (s.templatesUsing name).Nodup :=
    Name.nodup_sort (h.sublist (List.filter_sublist.map _))
  refine ((Name.pairwise_sort _).and hnodup).imp ?_
  rintro ⟨a⟩ ⟨b⟩ ⟨hle, hne⟩
  by_cases hlt : a < b
  · exact hlt
  · obtain rfl := String.le_antisymm hle (String.not_lt.mp hlt)
    exact absurd rfl hne

variable {c : Configuration} {library : Memory} {before : List Operation} {names : List Name}

/-- **Noted dependencies are what calls lead to.** After a served request the session
has noted for each of its names, without repetition, the templates that one or more
calls lead to from there, and for any other template what it had noted before. The
users of a template are those for which it has been noted, in order and each once.
The search for what calls lead to ends on every graph of references. -/
theorem dependencies_exact
    (h : (Operation.generate names).Succeeds ((fresh c library).performAll before)) :
    let s := (fresh c library).performAll before
    let s' := s.perform (.generate names)
    (∀ n ∈ names, ∃ d, s'.dependencies.get? n = some d ∧ d.order.Nodup ∧
        ∀ x, x ∈ d.order ↔ Reaches s.configuration s.library.sources n x) ∧
      (∀ n, n ∉ names → s'.dependencies.get? n = s.dependencies.get? n) ∧
      (∀ x, (s'.templatesUsing x).Pairwise (fun a b => a.text < b.text) ∧
        ∀ user, user ∈ s'.templatesUsing x ↔
          ∃ d, s'.dependencies.get? user = some d ∧ x ∈ d.order) ∧
      ∀ (r : References) (root : Name),
        (References.Search.next r)^[(r.closure root).length + 1] { pending := [root] } =
          { found := r.closure root, pending := [] } := by
  intro s s'
  have hdistinct : s.dependencies.Distinct := distinct_performAll Table.distinct_empty before
  obtain ⟨batch, hbatch⟩ := h
  have hsettled : Settled s names s' := settled_of_ok hdistinct hbatch
  refine ⟨?_, hsettled.dependencies, ?_, References.closure_rounds⟩
  · intro n hn
    obtain ⟨d, hd, hreach⟩ := (served_of_ok hbatch).noted n hn
    exact ⟨d, hd, d.nodup, hreach⟩
  · intro x
    refine ⟨templatesUsing_increasing hsettled.distinct x, ?_⟩
    intro user
    exact mem_templatesUsing hsettled.distinct

/-- A page is requested behind a tag on a cycle that it leads to, so that the tag has
been generated by then. Another page was requested before. -/
theorem dependencies_exact_cycle :
    let memory : Memory := ((({} : Memory).insert ⟨"tag/a.stn"⟩ "@tag.b()").insert
      ⟨"tag/b.stn"⟩ "@tag.a()").insert ⟨"page.stn"⟩ "@tag.a()"
    let before : List Operation := [.insert ⟨"old.stn"⟩ "@tag.b()", .generate [⟨"old.stn"⟩]]
    let s := (fresh {} memory).performAll before
    let names : List Name := [⟨"tag/a.stn"⟩, ⟨"page.stn"⟩]
    let s' := s.perform (.generate names)
    (Operation.generate names).Succeeds s ∧
      (∀ n ∈ names, ∃ d, s'.dependencies.get? n = some d ∧ d.order.Nodup ∧
        ∀ x, x ∈ d.order ↔ Reaches s.configuration s.library.sources n x) ∧
      ∀ x user, user ∈ s'.templatesUsing x ↔
        ∃ d, s'.dependencies.get? user = some d ∧ x ∈ d.order := by
  intro memory before s names s'
  have hserved : (Operation.generate names).Succeeds s := by decide +kernel
  have hs : (fresh {} memory).performAll before = s := rfl
  have hexact := dependencies_exact hserved
  rw [hs] at hexact
  obtain ⟨hnoted, -, husers, -⟩ := hexact
  exact ⟨hserved, hnoted, fun x => (husers x).2⟩

end Session

end Templating
