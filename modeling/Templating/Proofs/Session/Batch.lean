import Mathlib.Data.List.Nodup
import Templating.Proofs.Session.Descent

/-!
# Batches of served requests

A request is served just when it can be: when every template it is about has a
unit and no two of these go to the same place. Then its batch has the unit of
each of them, once, callees first; and for each name of the request the session
notes what calls lead to from there.
-/

namespace Templating.Session

variable {c : Configuration} {sources : Table Name String} {names : List Name}

/-! ## One name after the other -/

/-- The session has noted what calls lead to from a template. -/
def Noted (c : Configuration) (sources : Table Name String) (s : Session Memory) (n : Name) :
    Prop :=
  ∃ d, s.dependencies.get? n = some d ∧ ∀ x, x ∈ d.order ↔ Reaches c sources n x

theorem Noted.dependedOn_iff {s : Session Memory} {n : Name} (h : Noted c sources s n) (m : Name) :
    DependedOn s n m ↔ Reaches c sources n m := by
  obtain ⟨d, hd, hreach⟩ := h
  unfold DependedOn
  simp [hd, hreach]

/-- Behind a descent the references are the calls. -/
theorem Descent.refers_iff {r : Running Memory} (h : Descent c sources names [] r) {n : Name}
    (hn : r.Took n) (x : Name) :
    Relation.TransGen r.request.references.Refers n x ↔ Reaches c sources n x := by
  have hdelivered (a : Name) (ha : r.Took a) : a ∈ r.delivered :=
    ((h.took a).mp ha).resolve_left List.not_mem_nil
  have hstep (a b : Name) (ha : r.Took a) :
      r.request.references.Refers a b ↔ Calls c sources a b :=
    h.references a (hdelivered a ha) b
  have htook (a : Name) (ha : Reaches c sources n a) : r.Took a := by
    induction ha with
    | single hcall => exact h.closed n (hdelivered n hn) _ hcall
    | tail _ hcall ih => exact h.closed _ (hdelivered _ ih) _ hcall
  constructor
  · intro hpath
    induction hpath with
    | single hrefers => exact .single ((hstep _ _ hn).mp hrefers)
    | tail _ hrefers ih => exact ih.tail ((hstep _ _ (htook _ ih)).mp hrefers)
  · intro hpath
    induction hpath with
    | single hcall => exact .single ((hstep _ _ hn).mpr hcall)
    | tail hprefix hcall ih => exact ih.tail ((hstep _ _ (htook _ hprefix)).mpr hcall)

/-- Noting dependencies is no part of a descent. -/
theorem Descent.noteDependencies {r : Running Memory} {stack : List Name} {n : Name}
    (h : Descent c sources names stack r) :
    Descent c sources names stack (noteDependencies r n) :=
  ⟨h.configuration, h.library, h.within, h.slots, h.took, h.nodup, h.present, h.params, h.units,
    h.ordered, h.closed, h.references, h.unreferenced⟩

theorem noted_noteDependencies {r : Running Memory} (h : Descent c sources names [] r) {n : Name}
    (hn : r.Took n) : Noted c sources (noteDependencies r n).session n := by
  refine ⟨r.request.references.closure n, Table.get?_set_self _ _ _, ?_⟩
  intro x
  exact References.mem_closure.trans (h.refers_iff hn x)

/-- What has been noted stays, unless it is noted anew. -/
theorem Noted.noteDependencies {r : Running Memory} (h : Descent c sources names [] r)
    {n m : Name} (hn : r.Took n) (hm : Noted c sources r.session m) :
    Noted c sources (noteDependencies r n).session m := by
  by_cases hne : m = n
  · rw [hne]
    exact noted_noteDependencies h hn
  · obtain ⟨d, hd, hreach⟩ := hm
    refine ⟨d, ?_, hreach⟩
    show (r.session.dependencies.set n (r.request.references.closure n)).get? m = some d
    rw [Table.get?_set, if_neg hne]
    exact hd

/-- A descent notes no dependencies. -/
theorem generateInto_dependencies (room : Nat) (name : Name) (referencedFrom? : Option Location)
    (r : Running Memory) : ((generateInto room name referencedFrom?).run r).2.session.dependencies =
      r.session.dependencies := by
  have hsteps : Steps fun r' : Running Memory =>
      r'.session.dependencies = r.session.dependencies := by
    constructor
    case fetch =>
      intro r' name referencedFrom? _ h
      rw [fetch_run]
      exact h
    all_goals
      intros
      assumption
  exact hsteps.generateInto room name referencedFrom? r rfl

/-- **One name after the other is generated**, unless the request cannot be
served. -/
theorem generateEach_ends {room : Nat} (hroom : sources.size ≤ room) (rest : List Name)
    {r : Running Memory} (h : Descent c sources names [] r) (hsub : rest ⊆ names) :
    (¬Servable c sources names ∧ ∃ failure, ((generateEach room rest).run r).1 = .error failure) ∨
      (((generateEach room rest).run r).1 = .ok () ∧
        Descent c sources names [] ((generateEach room rest).run r).2 ∧
        (∀ n, r.Took n ∨ n ∈ rest → ((generateEach room rest).run r).2.Took n) ∧
        ∀ n, Noted c sources r.session n ∨ n ∈ rest →
          Noted c sources ((generateEach room rest).run r).2.session n) := by
  induction rest generalizing r with
  | nil =>
      right
      refine ⟨rfl, h, ?_, ?_⟩
      · rintro n (hn | hn)
        · exact hn
        · cases hn
      · rintro n (hn | hn)
        · exact hn
        · cases hn
  | cons name rest ih =>
      rw [generateEach_cons]
      have hempty : sources.size ≤ room + ([] : List Name).length := hroom
      have hends := descends_generateInto c sources names hempty r name none h
        (.listed (hsub List.mem_cons_self)) (by simp)
      have hkept := generateInto_dependencies room name none r
      generalize (generateInto room name none).run r = reached at hends hkept
      obtain ⟨answer, r'⟩ := reached
      rcases hends with ⟨hfaulty, failure, hfailure⟩ | ⟨hanswer, hdescent, htook, hgrows⟩
      · left
        obtain rfl : answer = .error failure := hfailure
        exact ⟨hfaulty, failure, rfl⟩
      · obtain rfl : answer = .ok (Address.ofName name c.package) := hanswer
        rcases ih hdescent.noteDependencies (fun n hn => hsub (List.mem_cons_of_mem _ hn)) with
          hfailed | ⟨hok, hend, hall, hnotes⟩
        · exact Or.inl hfailed
        · right
          refine ⟨hok, hend, ?_, ?_⟩
          · rintro n (hn | hn)
            · exact hall n (Or.inl (hgrows.took n hn))
            · rcases List.mem_cons.mp hn with rfl | hn
              · exact hall _ (Or.inl htook)
              · exact hall n (Or.inr hn)
          · rintro n (hn | hn)
            · have hn' : Noted c sources r'.session n := by
                unfold Noted
                rw [hkept]
                exact hn
              exact hnotes n (Or.inl (hn'.noteDependencies hdescent htook))
            · rcases List.mem_cons.mp hn with rfl | hn
              · exact hnotes _ (Or.inl (noted_noteDependencies hdescent htook))
              · exact hnotes n (Or.inr hn)

/-! ## Whole requests -/

theorem eq_ok_of_toOption {ε α : Type} {answer : Except ε α} {a : α}
    (h : answer.toOption = some a) : answer = .ok a := by
  cases answer with
  | error _ => cases h
  | ok _ => exact congrArg Except.ok (Option.some.inj h)

/-- The templates of a batch that was evaluated. -/
theorem exists_batch {answer : Except Failure Batch} {templates : List Name}
    (h : (answer.toOption.map fun batch => batch.units.map SourceUnit.template) =
      some templates) :
    ∃ batch, answer = .ok batch ∧ batch.units.map SourceUnit.template = templates := by
  obtain ⟨batch, hbatch, htemplates⟩ := Option.map_eq_some_iff.mp h
  exact ⟨batch, eq_ok_of_toOption hbatch, htemplates⟩

/-- The batch has the unit of every template that the request is about, once,
callees first. -/
structure Batched (c : Configuration) (sources : Table Name String) (names : List Name)
    (output : List SourceUnit) : Prop where
  templates : ∀ n, n ∈ output.map SourceUnit.template ↔ Within c sources names n
  nodup : (output.map SourceUnit.template).Nodup
  units : ∀ unit ∈ output, unitOf c sources unit.template = some unit
  ordered : CalleesFirst c sources (output.map SourceUnit.template)

theorem Descent.batched {r : Running Memory} (h : Descent c sources names [] r)
    (hnames : ∀ n ∈ names, r.Took n) : Batched c sources names r.request.units.toList where
  templates n := by
    have htook (a : Name) : r.Took a ↔ a ∈ r.delivered :=
      (h.took a).trans (or_iff_right List.not_mem_nil)
    constructor
    · intro hn
      exact h.within n ((htook n).mpr hn)
    · rintro ⟨root, hroot, hpath⟩
      induction hpath with
      | refl => exact (htook root).mp (hnames root hroot)
      | tail _ hcall ih => exact (htook _).mp (h.closed _ ih _ hcall)
  nodup := by
    have hnodup := h.nodup
    rwa [List.nil_append] at hnodup
  units := h.units
  ordered := h.ordered

theorem Batched.servable {units : List SourceUnit} (h : Batched c sources names units)
    (hapart : ∀ a b, Within c sources names a → Within c sources names b →
      slot c a = slot c b → a = b) : Servable c sources names where
  units n hn := by
    obtain ⟨unit, hunit, rfl⟩ := List.mem_map.mp ((h.templates n).mpr hn)
    exact ⟨unit, h.units unit hunit⟩
  apart := hapart

/-- The units of a batch are those of the templates that the request is about. -/
theorem Batched.mem_iff {units : List SourceUnit} (h : Batched c sources names units)
    {u : SourceUnit} : u ∈ units ↔
      Within c sources names u.template ∧ unitOf c sources u.template = some u := by
  constructor
  · intro hu
    exact ⟨(h.templates _).mp (List.mem_map_of_mem hu), h.units u hu⟩
  · rintro ⟨hwithin, hunit⟩
    obtain ⟨v, hv, htemplate⟩ := List.mem_map.mp ((h.templates _).mpr hwithin)
    have hsame := h.units v hv
    rw [htemplate, hunit] at hsame
    rw [Option.some.inj hsame]
    exact hv

/-- No two units of a batch go to the same place. -/
theorem Batched.slots_nodup {units : List SourceUnit} (h : Batched c sources names units)
    (hservable : Servable c sources names) :
    (units.map fun u => (u.identifier, u.address.target)).Nodup := by
  have hplace (u : SourceUnit) (hu : u ∈ units) :
      (u.identifier, u.address.target) = slot c u.template := by
    unfold SourceUnit.identifier slot
    rw [unitOf_address (h.units u hu)]
  have hwithin (u : SourceUnit) (hu : u ∈ units) : Within c sources names u.template :=
    (h.templates _).mp (List.mem_map_of_mem hu)
  rw [List.map_congr_left hplace]
  apply List.Nodup.map_on
  · intro u hu v hv hslot
    have htemplate := hservable.apart _ _ (hwithin u hu) (hwithin v hv) hslot
    exact List.inj_on_of_nodup_map h.nodup hu hv htemplate
  · exact List.Nodup.of_map _ h.nodup

/-- Templates that a request has taken up have places of their own. -/
theorem Descent.apart {r : Running Memory} {stack : List Name}
    (h : Descent c sources names stack r) {a b : Name} (ha : r.Took a) (hb : r.Took b)
    (hslot : slot c a = slot c b) : a = b := by
  unfold Running.Took at ha hb
  rw [h.configuration] at ha hb
  rw [hslot, hb] at ha
  exact (Option.some.inj ha).symm

/-- What a served request leaves. -/
structure Served (s : Session Memory) (names : List Name) (batch : Batch) (s' : Session Memory) :
    Prop where
  batched : Batched s.configuration s.library.sources names batch.units
  noted : ∀ n ∈ names, Noted s.configuration s.library.sources s' n
  servable : Servable s.configuration s.library.sources names

/-- A request that can be served takes up what it is about. -/
theorem requested_ends (s : Session Memory) (names : List Name) :
    (¬Servable s.configuration s.library.sources names ∧
        ∃ failure, (requested s names).1 = .error failure) ∨
      ((requested s names).1 = .ok () ∧ Servable s.configuration s.library.sources names ∧
        Descent s.configuration s.library.sources names [] (requested s names).2 ∧
        (∀ n, (requested s names).2.Took n ↔
          Within s.configuration s.library.sources names n) ∧
        ∀ n ∈ names, Noted s.configuration s.library.sources (requested s names).2.session n) := by
  have hroom : s.library.sources.size ≤ Library.capacity s.library := Nat.le_refl _
  rcases generateEach_ends hroom names (Descent.start names) (List.Subset.refl names) with
    hfailed | ⟨hok, hdescent, htook, hnoted⟩
  · exact Or.inl hfailed
  · right
    have hbatched := hdescent.batched fun n hn => htook n (Or.inr hn)
    have htook' (n : Name) : (requested s names).2.Took n ↔
        Within s.configuration s.library.sources names n := by
      constructor
      · exact hdescent.within n
      · intro hn
        exact (hdescent.took n).mpr (Or.inr ((hbatched.templates n).mpr hn))
    refine ⟨hok, hbatched.servable ?_, hdescent, htook', fun n hn => hnoted n (Or.inr hn)⟩
    intro a b ha hb
    exact hdescent.apart ((htook' a).mpr ha) ((htook' b).mpr hb)

/-- **A request is served or it cannot be.** -/
theorem generate_ends (s : Session Memory) (names : List Name) :
    (¬Servable s.configuration s.library.sources names ∧
        ∃ failure, ((generate names).run s).1 = .error failure) ∨
      ∃ batch, ((generate names).run s).1 = .ok batch ∧
        Served s names batch ((generate names).run s).2 := by
  have hends := requested_ends s names
  rw [generate_run]
  generalize requested s names = reached at hends
  obtain ⟨answer, r⟩ := reached
  rcases hends with ⟨hfaulty, failure, hfailure⟩ | ⟨hok, hservable, hdescent, htook, hnoted⟩
  · left
    obtain rfl : answer = .error failure := hfailure
    exact ⟨hfaulty, failure, rfl⟩
  · right
    obtain rfl : answer = .ok () := hok
    have hbatched := hdescent.batched fun n hn => (htook n).mpr (.listed hn)
    exact ⟨_, rfl, hbatched, hnoted, hservable⟩

/-- A request is served just when it can be. -/
theorem generate_ok_iff {s : Session Memory} {names : List Name} :
    (∃ batch, ((generate names).run s).1 = .ok batch) ↔
      Servable s.configuration s.library.sources names := by
  rcases generate_ends s names with ⟨hfaulty, failure, hfailure⟩ | ⟨batch, hbatch, hserved⟩
  · constructor
    · rintro ⟨batch, hbatch⟩
      rw [hfailure] at hbatch
      cases hbatch
    · exact fun h => absurd h hfaulty
  · exact ⟨fun _ => hserved.servable, fun _ => ⟨batch, hbatch⟩⟩

theorem served_of_ok {s : Session Memory} {names : List Name} {batch : Batch}
    (h : ((generate names).run s).1 = .ok batch) :
    Served s names batch ((generate names).run s).2 := by
  rcases generate_ends s names with ⟨-, failure, hfailure⟩ | ⟨other, hother, hserved⟩
  · rw [hfailure] at h
    cases h
  · rw [hother] at h
    obtain rfl := Except.ok.inj h
    exact hserved

/-- **A served request delivers what it is about.** The batch has one unit for each
of its names and for each template that calls lead to from there, and none besides;
each is the unit of its template, at a place of its own; and the callees of a
template come before it, except those that call back. -/
theorem generate_exact {s : Session Memory} {names : List Name} {batch : Batch}
    (h : ((generate names).run s).1 = .ok batch) :
    (∀ n, n ∈ batch.units.map SourceUnit.template ↔
        Within s.configuration s.library.sources names n) ∧
      (batch.units.map SourceUnit.template).Nodup ∧
      (∀ u ∈ batch.units, unitOf s.configuration s.library.sources u.template = some u) ∧
      (batch.units.map fun u => (u.identifier, u.address.target)).Nodup ∧
      ∀ before u after, batch.units = before ++ u :: after →
        ∀ v, Calls s.configuration s.library.sources u.template v →
          v ∈ batch.units.map SourceUnit.template ∧
            (v ∈ before.map SourceUnit.template ∨
              Reaches s.configuration s.library.sources v u.template) := by
  obtain ⟨hbatched, -, hservable⟩ := served_of_ok h
  refine ⟨hbatched.templates, hbatched.nodup, hbatched.units, hbatched.slots_nodup hservable, ?_⟩
  intro before u after hsplit v hcall
  have htemplates : batch.units.map SourceUnit.template =
      before.map SourceUnit.template ++ u.template :: after.map SourceUnit.template := by
    rw [hsplit, List.map_append, List.map_cons]
  constructor
  · have hu : u.template ∈ batch.units.map SourceUnit.template := by
      rw [htemplates]
      exact List.mem_append_right _ List.mem_cons_self
    exact (hbatched.templates v).mpr (((hbatched.templates _).mp hu).call hcall)
  · exact hbatched.ordered _ _ _ htemplates v hcall

/-- Two tags that call each other and share a third, which calls itself. -/
theorem generate_exact_cycle :
    let memory : Memory := (((({} : Memory).insert ⟨"tag/a.stn"⟩ "@tag.b()\n@tag.c()").insert
      ⟨"tag/b.stn"⟩ "@tag.a()").insert ⟨"tag/c.stn"⟩ "@tag.c()").insert
        ⟨"page.stn"⟩ "@tag.c()\n@tag.a()"
    let s : Session Memory := { configuration := {}, library := memory }
    ∃ batch, ((generate [⟨"page.stn"⟩, ⟨"tag/b.stn"⟩]).run s).1 = .ok batch ∧
      batch.units.map SourceUnit.template =
        [⟨"tag/c.stn"⟩, ⟨"tag/b.stn"⟩, ⟨"tag/a.stn"⟩, ⟨"page.stn"⟩] ∧
      ∀ n, n ∈ batch.units.map SourceUnit.template ↔
        Within s.configuration s.library.sources [⟨"page.stn"⟩, ⟨"tag/b.stn"⟩] n := by
  intro memory s
  obtain ⟨batch, hok, htemplates⟩ : ∃ batch,
      ((generate [⟨"page.stn"⟩, ⟨"tag/b.stn"⟩]).run s).1 = .ok batch ∧
        batch.units.map SourceUnit.template =
          [⟨"tag/c.stn"⟩, ⟨"tag/b.stn"⟩, ⟨"tag/a.stn"⟩, ⟨"page.stn"⟩] :=
    exists_batch (by decide +kernel)
  exact ⟨batch, hok, htemplates, (generate_exact hok).1⟩

end Templating.Session
