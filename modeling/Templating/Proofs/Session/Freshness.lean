import Templating.Proofs.Session.Run

/-!
# What has changed since the last request

A page that has not changed is what it was at the last request for it, and so are
its dependencies: requesting it again delivers the same units. For a template that
others call this is not so. Its own edit is forgotten when a request for something
else fetches its source, and a removal that lets a request fail is forgotten by all
that depended on the removed template. The theorems say when exactly a template
counts as changed.
-/

namespace Templating.Session

variable {c : Configuration} {library : Memory} {before since : List Operation}
  {names : List Name} {n : Name}

/-! ## Pages -/

/-- The sources of an unchanged page and of what calls lead to from there are what
they were when it was last requested. -/
theorem sources_of_unchanged {s : Session Memory} (h : s.dependencies.Distinct)
    (hpage : n.kind = .page) (hn : n ∈ names)
    (hops : AllSucceed s (.generate names :: since)) (hlast : ∀ op ∈ since, ¬op.Requests n)
    (hunchanged : (s.performAll (.generate names :: since)).hasChanged n = false) (m : Name)
    (hm : Within s.configuration s.library.sources [n] m) :
    s.library.sources.get? m =
      (s.performAll (.generate names :: since)).library.sources.get? m := by
  have hdistinct := distinct_perform h (.generate names)
  have hnothing := (not_congr (since_request h hn hops hlast).2).mp (Bool.eq_false_iff.mp hunchanged)
  obtain ⟨hconcerned, hpending⟩ := not_or.mp hnothing
  have hunedited : ∀ op ∈ since, ¬op.Edits m := by
    intro op hop hedits
    rcases within_singleton.mp hm with rfl | hreaches
    · obtain ⟨earlier, later, hsplit⟩ := List.append_of_mem hop
      apply hpending
      refine (mem_changed_performAll hdistinct hops.2).mpr
        (Or.inr ⟨earlier, op, later, hsplit, hedits, spares_of_page hpage ?_⟩)
      intro op' hop'
      exact hlast op' (hsplit ▸ List.mem_append_right _ (List.mem_cons_of_mem _ hop'))
    · exact hconcerned ⟨op, hop, Or.inr ⟨m, hreaches, Or.inl hedits⟩⟩
  have hsource : ((s.perform (.generate names)).performAll since).library.sources.get? m =
      (s.perform (.generate names)).library.sources.get? m := source_performAll hdistinct hunedited
  have hrequest : (s.perform (.generate names)).library.sources = s.library.sources :=
    (generate_keeps h names).2.1
  rw [← hrequest]
  exact hsource.symm

/-- **No stale page goes unnoticed.** As long as a page does not count as changed, its
source and those of its dependencies are what they were when it was last requested,
and requesting it again delivers the units that it and they had in that batch. -/
theorem page_unchanged (hpage : n.kind = .page) (hn : n ∈ names)
    (hops : AllSucceed (fresh c library) (before ++ .generate names :: since))
    (hlast : ∀ op ∈ since, ¬op.Requests n)
    (hunchanged : ((fresh c library).performAll
      (before ++ .generate names :: since)).hasChanged n = false) :
    let s := (fresh c library).performAll before
    let s' := (fresh c library).performAll (before ++ .generate names :: since)
    ∃ d, s'.dependencies.get? n = some d ∧
      (∀ m, m = n ∨ m ∈ d.order → s.library.sources.get? m = s'.library.sources.get? m) ∧
      ∃ batch batch', ((generate names).run s).1 = .ok batch ∧
        ((generate [n]).run s').1 = .ok batch' ∧
        ∀ u, u ∈ batch'.units ↔ u ∈ batch.units ∧ (u.template = n ∨ u.template ∈ d.order) := by
  intro s s'
  have hdistinct : s.dependencies.Distinct := distinct_performAll Table.distinct_empty before
  have hrun : s' = s.performAll (.generate names :: since) := performAll_append _ _ _
  have hsucceeds : AllSucceed s (.generate names :: since) := (allSucceed_append.mp hops).2
  have hsources := sources_of_unchanged hdistinct hpage hn hsucceeds hlast (hrun ▸ hunchanged)
  obtain ⟨d, hd, hreach⟩ := (since_request hdistinct hn hsucceeds hlast).1
  have hconfiguration := configuration_performAll hdistinct (.generate names :: since)
  rw [← hrun] at hsources hd hconfiguration
  have hwithin (m : Name) : m = n ∨ m ∈ d.order ↔
      Within s.configuration s.library.sources [n] m := by
    rw [within_singleton, hreach]
  obtain ⟨batch, hbatch⟩ := hsucceeds.1
  have hserved := served_of_ok hbatch
  have hlisted : [n] ⊆ names := List.cons_subset.mpr ⟨hn, List.nil_subset _⟩
  have hservable : Servable s'.configuration s'.library.sources [n] := by
    rw [hconfiguration]
    exact (hserved.servable.mono hlisted).congr hsources
  obtain ⟨batch', hbatch'⟩ := generate_ok_iff.mpr hservable
  refine ⟨d, hd, fun m hm => hsources m ((hwithin m).mp hm), batch, batch', hbatch, hbatch', ?_⟩
  intro u
  rw [(served_of_ok hbatch').batched.mem_iff, hserved.batched.mem_iff, hwithin, hconfiguration,
    ← Within.congr hsources]
  constructor
  · rintro ⟨hu, hunit⟩
    rw [← unitOf_within_congr hsources hu] at hunit
    exact ⟨⟨hu.mono hlisted, hunit⟩, hu⟩
  · rintro ⟨⟨-, hunit⟩, hu⟩
    rw [unitOf_within_congr hsources hu] at hunit
    exact ⟨hu, hunit⟩

/-- A page that is not touched while another one is edited. -/
theorem page_unchanged_shared :
    let memory : Memory := ((({} : Memory).insert ⟨"tag/card.stn"⟩ "card").insert ⟨"a.stn"⟩
      "@tag.card()").insert ⟨"b.stn"⟩ "@tag.card()"
    let since : List Operation := [.insert ⟨"b.stn"⟩ "@tag.card()\nb", .generate [⟨"b.stn"⟩]]
    let s := (fresh {} memory).performAll []
    let s' := (fresh {} memory).performAll ([] ++ .generate [⟨"a.stn"⟩] :: since)
    s'.hasChanged ⟨"a.stn"⟩ = false ∧
      ∃ d, s'.dependencies.get? ⟨"a.stn"⟩ = some d ∧
        ∃ batch batch', ((generate [⟨"a.stn"⟩]).run s).1 = .ok batch ∧
          ((generate [⟨"a.stn"⟩]).run s').1 = .ok batch' ∧
          ∀ u, u ∈ batch'.units ↔
            u ∈ batch.units ∧ (u.template = ⟨"a.stn"⟩ ∨ u.template ∈ d.order) := by
  intro memory since s s'
  have hunchanged : s'.hasChanged ⟨"a.stn"⟩ = false := by decide +kernel
  have hops : AllSucceed (fresh {} memory) ([] ++ .generate [⟨"a.stn"⟩] :: since) := by
    decide +kernel
  obtain ⟨d, hd, -, hbatches⟩ := page_unchanged (by decide +kernel) (List.mem_singleton_self _)
    hops (by decide +kernel) hunchanged
  exact ⟨hunchanged, d, hd, hbatches⟩

/-! ## Templates that others call -/

/-- **What has changed since the last request** for a template: it or something that
calls led to from it was invalidated, or one of these was edited, which no later
request takes away; or its own source was edited and no request has been about it
since. -/
theorem hasChanged_since_iff (hn : n ∈ names)
    (hops : AllSucceed (fresh c library) (before ++ .generate names :: since))
    (hlast : ∀ op ∈ since, ¬op.Requests n) :
    let s := (fresh c library).performAll before
    ((fresh c library).performAll (before ++ .generate names :: since)).hasChanged n = true ↔
      (∃ op ∈ since, op.Concerns n (Reaches s.configuration s.library.sources n)) ∨
        ∃ earlier op later, since = earlier ++ op :: later ∧ op.Edits n ∧
          Spares n (s.performAll (.generate names :: (earlier ++ [op]))) later := by
  intro s
  have hdistinct : s.dependencies.Distinct := distinct_performAll Table.distinct_empty before
  have hsucceeds : AllSucceed s (.generate names :: since) := (allSucceed_append.mp hops).2
  obtain ⟨batch, hbatch⟩ := hsucceeds.1
  have hfetched : n ∉ (s.perform (.generate names)).library.changed := fun hpending =>
    (((settled_of_ok hdistinct hbatch).changed n).mp hpending).2 (.listed hn)
  rw [performAll_append]
  refine (since_request hdistinct hn hsucceeds hlast).2.trans (or_congr_right ?_)
  refine (mem_changed_performAll (distinct_perform hdistinct _) hsucceeds.2).trans ?_
  exact or_iff_right fun hkept => hfetched hkept.1

/-- A tag is edited that another tag, itself requested, calls. -/
theorem hasChanged_since_iff_callee :
    let memory : Memory := ((({} : Memory).insert ⟨"tag/card.stn"⟩ "card").insert ⟨"tag/row.stn"⟩
      "@tag.card()").insert ⟨"page.stn"⟩ "@tag.row()"
    let since : List Operation := [.insert ⟨"tag/card.stn"⟩ "new", .generate [⟨"page.stn"⟩]]
    AllSucceed (fresh {} memory) ([] ++ .generate [⟨"tag/row.stn"⟩] :: since) ∧
      ((fresh {} memory).performAll
        ([] ++ .generate [⟨"tag/row.stn"⟩] :: since)).hasChanged ⟨"tag/row.stn"⟩ = true := by
  intro memory since
  have hops : AllSucceed (fresh {} memory) ([] ++ .generate [⟨"tag/row.stn"⟩] :: since) := by
    decide +kernel
  have hcalls : Calls {} memory.sources ⟨"tag/row.stn"⟩ ⟨"tag/card.stn"⟩ :=
    ⟨"@tag.card()", by decide +kernel, by decide +kernel⟩
  refine ⟨hops, (hasChanged_since_iff (List.mem_singleton_self _) hops (by decide +kernel)).mpr ?_⟩
  exact Or.inl ⟨_, List.mem_cons_self, Or.inr ⟨_, .single hcalls, Or.inl rfl⟩⟩

/-- The edit of a tag that was requested itself is forgotten when a page that calls
it is requested. -/
theorem own_edit_forgotten :
    let memory : Memory := (({} : Memory).insert ⟨"tag/t.stn"⟩ "one").insert ⟨"p.stn"⟩ "@tag.t()"
    let edited : List Operation := [.generate [⟨"tag/t.stn"⟩], .insert ⟨"tag/t.stn"⟩ "two"]
    let s := (fresh {} memory).performAll edited
    let s' := (fresh {} memory).performAll (edited ++ [.generate [⟨"p.stn"⟩]])
    AllSucceed (fresh {} memory) (edited ++ [.generate [⟨"p.stn"⟩]]) ∧
      Name.kind ⟨"tag/t.stn"⟩ = .tag ∧ s.hasChanged ⟨"tag/t.stn"⟩ = true ∧
      s'.hasChanged ⟨"tag/t.stn"⟩ = false := by
  decide +kernel

/-! ## Requests that fail -/

/-- Compiling what was generated leaves the session to the request. -/
theorem compileWith_session {τ : Type} (backend : Target → Backend τ) (names : List Name)
    (s : Session Memory) (t : τ) :
    ((compileWith backend names).run (s, t)).2.1 = ((generate names).run s).2 := by
  unfold compileWith
  simp only [StateT.run]
  generalize generate names s = reached
  obtain ⟨answer, s'⟩ := reached
  cases answer with
  | error failure => rfl
  | ok batch =>
      simp only
      split
      · rfl
      · rfl
      · split
        split <;> rfl

theorem precompile_session (here : Files.Place) (names : List Name) (s : Session Memory)
    (tree : Files.Tree) :
    ((precompile here names).run (s, tree)).2.1 = ((generate names).run s).2 :=
  compileWith_session (fun target => delivering
    (s.configuration.delivery?.getD (Delivery.ofTarget target)) here s.configuration.output)
    names s tree

/-- **What is pending behind a request**, served or not, in any session that can come
about. The request has generated the names before the first one for which it cannot
be served. Until then it has not cleared a template that was known to be out of
date, and for those that are not among these names just the changes are left that
it has not fetched and those that it could hand over. -/
theorem pending_behind_request (c : Configuration) (library : Memory) (ops : List Operation)
    (names : List Name) :
    let s := (fresh c library).performAll ops
    let s' := ((generate names).run s).2
    (∀ here tree, ((precompile here names).run (s, tree)).2.1 = s') ∧
      ∃ done rest, names = done ++ rest ∧ Servable s.configuration s.library.sources done ∧
        (∀ name later, rest = name :: later →
          ¬Servable s.configuration s.library.sources (done ++ [name]) ∧
            ∀ n ∈ s.stale, s'.hasChanged n = true) ∧
        ∀ n, n ∉ done → (s'.hasChanged n = true ↔ LeftPending s s' n) := by
  intro s s'
  have hdistinct : s.dependencies.Distinct := distinct_performAll Table.distinct_empty ops
  refine ⟨fun here tree => precompile_session here names s tree, ?_⟩
  cases hanswer : ((generate names).run s).1 with
  | ok batch =>
      have hservable := generate_ok_iff.mp ⟨batch, hanswer⟩
      refine ⟨names, [], (List.append_nil _).symm, hservable, ?_, ?_⟩
      · intro name later hnil
        cases hnil
      · intro n hn
        exact (settled_of_ok hdistinct hanswer).hasChanged_unlisted hservable hn
  | error failure =>
      obtain ⟨done, name, rest, r, hnames, hdone, hfirst, htracks, hsession⟩ :=
        tracks_of_error hdistinct hanswer
      have hs' : s' = r.session := hsession
      refine ⟨done, name :: rest, hnames, hdone, ?_, ?_⟩
      · intro name' later hcons
        obtain ⟨rfl, rfl⟩ := List.cons.inj hcons
        refine ⟨hfirst, ?_⟩
        intro n hn
        rw [hs']
        exact hasChanged_iff.mpr (Or.inl (htracks.kept n hn))
      · intro n hn
        rw [hs']
        exact htracks.hasChanged_iff hn

/-- The removal of a tag is forgotten by a page that calls it when a request for
another page fails because of it. -/
theorem removal_forgotten :
    let memory : Memory := ((({} : Memory).insert ⟨"tag/card.stn"⟩ "card").insert ⟨"a.stn"⟩
      "@tag.card()").insert ⟨"b.stn"⟩ "@tag.card()"
    let s := (fresh {} memory).performAll
      [.generate [⟨"a.stn"⟩, ⟨"b.stn"⟩], .remove ⟨"tag/card.stn"⟩]
    s.hasChanged ⟨"a.stn"⟩ = true ∧ ((generate [⟨"b.stn"⟩]).run s).1.isOk = false ∧
      ((generate [⟨"b.stn"⟩]).run s).2.hasChanged ⟨"a.stn"⟩ = false := by
  decide +kernel

end Templating.Session
