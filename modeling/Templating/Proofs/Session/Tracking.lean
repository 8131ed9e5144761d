import Templating.Proofs.Session.Batch

/-!
# What a request does to pending changes

A request fetches the sources it takes up, and a fetched change is no longer
pending in the library. It is handed over to the templates that depended on the
changed one, which are out of date from then on, provided that there is still a
source; it is not handed over to the changed template itself. `Tracks` says what
is pending in the course of a request and `Settled` what a served one leaves. A
request that fails has done the names before the first one it cannot be served for.
-/

namespace Templating.Session

theorem hasChanged_iff {s : Session Memory} {n : Name} : s.hasChanged n = true ↔
    n ∈ s.stale ∨ n ∈ s.library.changed ∨ ∃ m, DependedOn s n m ∧ m ∈ s.library.changed := by
  have hchanged (m : Name) : Library.hasChanged s.library m = decide (m ∈ s.library.changed) := rfl
  unfold hasChanged DependedOn
  rw [Bool.or_eq_true, Bool.or_eq_true, decide_eq_true_eq, hchanged, decide_eq_true_eq, or_assoc]
  apply or_congr_right
  apply or_congr_right
  cases s.dependencies.get? n with
  | none => simp
  | some d =>
      simp only [List.any_eq_true, hchanged, decide_eq_true_eq]
      constructor
      · rintro ⟨m, hm, hpending⟩
        exact ⟨m, ⟨d, rfl, hm⟩, hpending⟩
      · rintro ⟨m, ⟨d', hd, hm⟩, hpending⟩
        obtain rfl := Option.some.inj hd
        exact ⟨m, hm, hpending⟩

/-- A template that depends on others is out of date, or a change of one of these is
pending. -/
def Awaits (s : Session Memory) (n : Name) (depends : Name → Prop) : Prop :=
  n ∈ s.stale ∨ ∃ m, depends m ∧ m ∈ s.library.changed

theorem hasChanged_iff_awaits {s : Session Memory} {n : Name} {depends : Name → Prop}
    (hdepends : ∀ m, DependedOn s n m ↔ depends m) :
    s.hasChanged n = true ↔ Awaits s n depends ∨ n ∈ s.library.changed := by
  rw [hasChanged_iff]
  unfold Awaits
  simp only [hdepends]
  rw [or_assoc, or_comm (a := n ∈ s.library.changed)]

/-- What is left, in a later session, of the changes that were pending for a
template: it is still out of date, a change of its own has not been fetched, or one
that it depended on had changed and either has not been fetched or was there when
it was. -/
def LeftPending (s s' : Session Memory) (user : Name) : Prop :=
  user ∈ s.stale ∨ user ∈ s'.library.changed ∨
    ∃ n, DependedOn s user n ∧ n ∈ s.library.changed ∧
      (n ∈ s'.library.changed ∨ (s.library.sources.get? n).isSome = true)

/-! ## In the course of a request -/

/-- What is pending in the course of a request that began in the session `s` and
has generated the names `done`. Their dependencies have been noted anew; those of
any other template are what they were. -/
structure Tracks (s : Session Memory) (done : List Name) (r : Running Memory) : Prop where
  configuration : r.session.configuration = s.configuration
  library : r.session.library.sources = s.library.sources
  distinct : r.session.dependencies.Distinct
  changed : ∀ n, n ∈ r.session.library.changed ↔ n ∈ s.library.changed ∧ ¬r.Took n
  kept : ∀ n ∈ s.stale, n ∈ r.session.stale
  dependencies : ∀ user, user ∉ done →
    r.session.dependencies.get? user = s.dependencies.get? user
  stale : ∀ user, user ∉ done → (user ∈ r.session.stale ↔ user ∈ s.stale ∨
    ∃ n, r.Took n ∧ n ∈ s.library.changed ∧ (s.library.sources.get? n).isSome = true ∧
      DependedOn s user n)

namespace Tracks

variable {s : Session Memory} {done : List Name} {r : Running Memory}

theorem start (h : s.dependencies.Distinct) : Tracks s [] { session := s } where
  configuration := rfl
  library := rfl
  distinct := h
  changed n := by simp [Running.Took]
  kept n hn := hn
  dependencies _ _ := rfl
  stale user _ := by simp [Running.Took]

theorem dependedOn_iff (h : Tracks s done r) {user n : Name} (hu : user ∉ done) :
    DependedOn r.session user n ↔ DependedOn s user n := by
  unfold DependedOn
  rw [h.dependencies user hu]

theorem takeUp (h : Tracks s done r) {name : Name}
    (hfree : r.request.reserved.get? (slot r.session.configuration name) = none) :
    Tracks s done (r.takeUp name) := by
  have htook (n : Name) := r.took_takeUp name hfree (n := n)
  have hnew := Running.not_took_of_free hfree
  constructor
  case configuration => exact h.configuration
  case library => exact h.library
  case distinct => exact h.distinct
  case changed =>
    intro n
    rw [Running.mem_takeUp_changed, h.changed, htook, not_or, and_assoc]
  case kept =>
    intro n hn
    exact (r.mem_takeUp_stale name h.distinct).mpr (Or.inl (h.kept n hn))
  case dependencies => exact h.dependencies
  case stale =>
    intro user hu
    rw [r.mem_takeUp_stale name h.distinct, h.stale user hu, h.library, h.changed,
      h.dependedOn_iff hu, or_assoc]
    apply or_congr_right
    -- The change of `name` is handed over now, all others were before.
    constructor
    · rintro (⟨n, hn, hrest⟩ | ⟨hpresent, ⟨hchanged, -⟩, huser⟩)
      · exact ⟨n, (htook n).mpr (Or.inl hn), hrest⟩
      · exact ⟨name, (htook name).mpr (Or.inr rfl), hchanged, hpresent, huser⟩
    · rintro ⟨n, hn, hchanged, hpresent, huser⟩
      rcases (htook n).mp hn with hn | rfl
      · exact Or.inl ⟨n, hn, hchanged, hpresent, huser⟩
      · exact Or.inr ⟨hpresent, ⟨hchanged, hnew⟩, huser⟩

/-- What is pending does not depend on what else a request notes. -/
theorem congr {r' : Running Memory} (h : Tracks s done r)
    (hsession : r'.session.configuration = r.session.configuration ∧
      r'.session.library = r.session.library ∧
      r'.session.dependencies = r.session.dependencies ∧ r'.session.stale = r.session.stale)
    (hreserved : r'.request.reserved = r.request.reserved) : Tracks s done r' := by
  obtain ⟨hconfiguration, hlibrary, hdependencies, hstale⟩ := hsession
  have htook (n : Name) : r'.Took n ↔ r.Took n := by
    unfold Running.Took
    rw [hreserved, hconfiguration]
  constructor
  case configuration => exact hconfiguration.trans h.configuration
  case library =>
    rw [hlibrary]
    exact h.library
  case distinct =>
    rw [hdependencies]
    exact h.distinct
  case changed =>
    intro n
    rw [hlibrary, htook]
    exact h.changed n
  case kept =>
    rw [hstale]
    exact h.kept
  case dependencies =>
    rw [hdependencies]
    exact h.dependencies
  case stale =>
    intro user hu
    simp only [hstale, htook]
    exact h.stale user hu

theorem steps (s : Session Memory) (done : List Name) : Steps (Tracks s done) where
  refer _ _ _ h := h.congr ⟨rfl, rfl, rfl, rfl⟩ rfl
  declare _ _ _ h := h.congr ⟨rfl, rfl, rfl, rfl⟩ rfl
  intercepted _ _ h := h.congr ⟨rfl, rfl, rfl, rfl⟩ rfl
  deliver _ _ h := h.congr ⟨rfl, rfl, rfl, rfl⟩ rfl
  fetch r name referencedFrom? hfree h := by
    rw [fetch_run]
    exact h.takeUp hfree

/-- A name of the request is done. -/
theorem noteDependencies (h : Tracks s done r) (name : Name) :
    Tracks s (done ++ [name]) (noteDependencies r name) := by
  have hearlier {user : Name} (hu : user ∉ done ++ [name]) : user ∉ done ∧ user ≠ name := by
    rw [List.mem_append, List.mem_singleton, not_or] at hu
    exact hu
  constructor
  case configuration => exact h.configuration
  case library => exact h.library
  case distinct => exact h.distinct.set _ _
  case changed => exact h.changed
  case kept => exact h.kept
  case dependencies =>
    intro user hu
    obtain ⟨hu, hne⟩ := hearlier hu
    show (r.session.dependencies.set name _).get? user = _
    rw [Table.get?_set, if_neg hne]
    exact h.dependencies user hu
  case stale =>
    intro user hu
    exact h.stale user (hearlier hu).1

/-- A request takes no more than it fetches from a template that is not done. -/
theorem hasChanged_iff (h : Tracks s done r) {user : Name} (hu : user ∉ done) :
    r.session.hasChanged user = true ↔ LeftPending s r.session user := by
  unfold LeftPending
  rw [Session.hasChanged_iff, h.stale user hu]
  simp only [h.dependedOn_iff hu]
  constructor
  · rintro ((hstale | ⟨n, -, hn, hpresent, huser⟩) | hown | ⟨n, huser, hn⟩)
    · exact Or.inl hstale
    · exact Or.inr (Or.inr ⟨n, huser, hn, Or.inr hpresent⟩)
    · exact Or.inr (Or.inl hown)
    · exact Or.inr (Or.inr ⟨n, huser, ((h.changed n).mp hn).1, Or.inl hn⟩)
  · rintro (hstale | hown | ⟨n, huser, hn, hleft⟩)
    · exact Or.inl (Or.inl hstale)
    · exact Or.inr (Or.inl hown)
    · by_cases htook : r.Took n
      · rcases hleft with hpending | hpresent
        · exact absurd htook ((h.changed n).mp hpending).2
        · exact Or.inl (Or.inr ⟨n, htook, hn, hpresent, huser⟩)
      · exact Or.inr (Or.inr ⟨n, huser, (h.changed n).mpr ⟨hn, htook⟩⟩)

end Tracks

/-- A request keeps track of what is pending from one name to the next. -/
theorem generateEach_tracks {s : Session Memory} (room : Nat) (names : List Name)
    {done : List Name} {r : Running Memory} (h : Tracks s done r)
    (hok : ((generateEach room names).run r).1 = .ok ()) :
    Tracks s (done ++ names) ((generateEach room names).run r).2 := by
  induction names generalizing done r with
  | nil =>
      rw [List.append_nil]
      exact h
  | cons name rest ih =>
      rw [generateEach_cons] at hok ⊢
      have hkept := (Tracks.steps s done).generateInto room name none r h
      generalize (generateInto room name none).run r = reached at hkept hok ⊢
      obtain ⟨answer, r'⟩ := reached
      cases answer with
      | error failure => cases hok
      | ok address =>
          have hrest := ih (hkept.noteDependencies name) hok
          rwa [List.append_assoc, List.singleton_append] at hrest

/-- A request fails in the descent of the first name that it fails for. -/
theorem generateEach_stops {room : Nat} (names : List Name) {r : Running Memory}
    {failure : Failure} (hfailed : ((generateEach room names).run r).1 = .error failure) :
    ∃ done name rest, names = done ++ name :: rest ∧
      ((generateEach room done).run r).1 = .ok () ∧
      (generateEach room (done ++ [name])).run r = (generateEach room names).run r ∧
      ((generateInto room name none).run ((generateEach room done).run r).2).2 =
        ((generateEach room names).run r).2 := by
  induction names generalizing r with
  | nil => cases hfailed
  | cons name rest ih =>
      rw [generateEach_cons] at hfailed ⊢
      cases hentered : (generateInto room name none).run r with
      | mk answer r' =>
          rw [hentered] at hfailed
          cases answer with
          | error failure' =>
              refine ⟨[], name, rest, rfl, rfl, ?_, ?_⟩
              · rw [List.nil_append, generateEach_cons, hentered]
              · exact congrArg Prod.snd hentered
          | ok address =>
              obtain ⟨done, first, rest', rfl, hdone, hfirst, hstop⟩ := ih hfailed
              refine ⟨name :: done, first, rest', rfl, ?_, ?_, ?_⟩
              · rw [generateEach_cons, hentered]
                exact hdone
              · rw [List.cons_append, generateEach_cons, hentered]
                exact hfirst
              · rw [generateEach_cons, hentered]
                exact hstop

/-! ## Behind a request -/

/-- What is pending behind a served request: the changes it has not fetched, and
for the templates it does not list the ones that it has. -/
structure Settled (s : Session Memory) (names : List Name) (s' : Session Memory) : Prop where
  configuration : s'.configuration = s.configuration
  library : s'.library.sources = s.library.sources
  distinct : s'.dependencies.Distinct
  changed : ∀ n, n ∈ s'.library.changed ↔
    n ∈ s.library.changed ∧ ¬Within s.configuration s.library.sources names n
  dependencies : ∀ user, user ∉ names → s'.dependencies.get? user = s.dependencies.get? user
  stale : ∀ user, user ∈ s'.stale ↔ user ∉ names ∧ (user ∈ s.stale ∨
    ∃ n, Within s.configuration s.library.sources names n ∧ n ∈ s.library.changed ∧
      DependedOn s user n)

theorem settled_of_ok {s : Session Memory} (h : s.dependencies.Distinct) {names : List Name}
    {batch : Batch} (hok : ((generate names).run s).1 = .ok batch) :
    Settled s names ((generate names).run s).2 := by
  have htracks := generateEach_tracks (Library.capacity s.library) names (.start h)
  rcases requested_ends s names with ⟨hfaulty, -⟩ | ⟨hserved, hservable, -, htook, -⟩
  · exact absurd (generate_ok_iff.mp ⟨batch, hok⟩) hfaulty
  · specialize htracks hserved
    rw [List.nil_append] at htracks
    rw [generate_run]
    unfold requested at hserved htook ⊢
    generalize (generateEach (Library.capacity s.library) names).run { session := s } = reached
      at htracks hserved htook ⊢
    obtain ⟨answer, r⟩ := reached
    obtain rfl : answer = .ok () := hserved
    constructor
    case configuration => exact htracks.configuration
    case library => exact htracks.library
    case distinct => exact htracks.distinct
    case changed =>
      intro n
      exact (htracks.changed n).trans (and_congr_right fun _ => not_congr (htook n))
    case dependencies => exact htracks.dependencies
    case stale =>
      intro user
      have hmem : user ∈ (r.session.settle names).stale ↔ user ∉ names ∧ user ∈ r.session.stale := by
        show user ∈ r.session.stale.filter (fun n => n ∉ names) ↔ _
        simp [and_comm]
      refine hmem.trans (and_congr_right fun hu => (htracks.stale user hu).trans ?_)
      apply or_congr_right
      apply exists_congr
      intro n
      rw [htook]
      apply and_congr_right
      intro hn
      simp [hservable.isSome_source hn]

namespace Settled

variable {s s' : Session Memory} {names : List Name}

/-- A served request that does not list a template neither adds to what is pending
of its dependencies nor takes anything away. -/
theorem awaits_iff {n : Name} {depends : Name → Prop} (h : Settled s names s')
    (hdepends : ∀ m, DependedOn s n m ↔ depends m) (hn : n ∉ names) :
    Awaits s' n depends ↔ Awaits s n depends := by
  constructor
  · rintro (hstale | ⟨m, hm, hpending⟩)
    · rcases ((h.stale n).mp hstale).2 with hstale | ⟨m, -, hpending, huser⟩
      · exact Or.inl hstale
      · exact Or.inr ⟨m, (hdepends m).mp huser, hpending⟩
    · exact Or.inr ⟨m, hm, ((h.changed m).mp hpending).1⟩
  · rintro (hstale | ⟨m, hm, hpending⟩)
    · exact Or.inl ((h.stale n).mpr ⟨hn, Or.inl hstale⟩)
    · -- The change is handed over if the request is about the changed template.
      by_cases hwithin : Within s.configuration s.library.sources names m
      · exact Or.inl ((h.stale n).mpr ⟨hn, Or.inr ⟨m, hwithin, hpending, (hdepends m).mpr hm⟩⟩)
      · exact Or.inr ⟨m, hm, (h.changed m).mpr ⟨hpending, hwithin⟩⟩

theorem hasChanged_unlisted (h : Settled s names s')
    (hservable : Servable s.configuration s.library.sources names) {n : Name} (hn : n ∉ names) :
    s'.hasChanged n = true ↔ LeftPending s s' n := by
  have hdepends (m : Name) : DependedOn s' n m ↔ DependedOn s n m := by
    unfold DependedOn
    rw [h.dependencies n hn]
  have hleft (m : Name) (hm : m ∈ s.library.changed) :
      m ∈ s'.library.changed ∨ (s.library.sources.get? m).isSome = true := by
    by_cases hwithin : Within s.configuration s.library.sources names m
    · exact Or.inr (hservable.isSome_source hwithin)
    · exact Or.inl ((h.changed m).mpr ⟨hm, hwithin⟩)
  rw [hasChanged_iff_awaits hdepends, h.awaits_iff (fun _ => Iff.rfl) hn]
  constructor
  · rintro ((hstale | ⟨m, hm, hpending⟩) | hown)
    · exact Or.inl hstale
    · exact Or.inr (Or.inr ⟨m, hm, hpending, hleft m hpending⟩)
    · exact Or.inr (Or.inl hown)
  · rintro (hstale | hown | ⟨m, hm, hpending, -⟩)
    · exact Or.inl (Or.inl hstale)
    · exact Or.inr hown
    · exact Or.inl (Or.inr ⟨m, hm, hpending⟩)

/-- A template has not changed right after it was requested. -/
theorem hasChanged_listed (h : Settled s names s') {n : Name} (hn : n ∈ names)
    (hnoted : Noted s.configuration s.library.sources s' n) : s'.hasChanged n = false := by
  have hfetched (m : Name) (hm : Within s.configuration s.library.sources names m) :
      m ∉ s'.library.changed := fun hchanged => ((h.changed m).mp hchanged).2 hm
  apply Bool.eq_false_iff.mpr
  rw [Ne, hasChanged_iff_awaits hnoted.dependedOn_iff]
  rintro ((hstale | ⟨m, hm, hchanged⟩) | hown)
  · exact ((h.stale n).mp hstale).1 hn
  · exact hfetched m ⟨n, hn, hm.to_reflTransGen⟩ hchanged
  · exact hfetched n (.listed hn) hown

end Settled

/-- **A request that fails stops** at the first name for which it cannot be served,
and goes no further. -/
theorem tracks_of_error {s : Session Memory} (h : s.dependencies.Distinct) {names : List Name}
    {failure : Failure} (hfailed : ((generate names).run s).1 = .error failure) :
    ∃ done name rest r, names = done ++ name :: rest ∧
      Servable s.configuration s.library.sources done ∧
      ¬Servable s.configuration s.library.sources (done ++ [name]) ∧
      Tracks s done r ∧ ((generate names).run s).2 = r.session := by
  have hrequested : (requested s names).1 = .error failure ∧
      ((generate names).run s).2 = (requested s names).2.session := by
    rw [generate_run] at hfailed ⊢
    generalize requested s names = reached at hfailed ⊢
    obtain ⟨answer, r⟩ := reached
    cases answer with
    | ok _ => cases hfailed
    | error failure' =>
        obtain rfl : failure' = failure := Except.error.inj hfailed
        exact ⟨rfl, rfl⟩
  obtain ⟨hfailure, hsession⟩ := hrequested
  obtain ⟨done, name, rest, rfl, hdone, hfirst, hstop⟩ := generateEach_stops names hfailure
  refine ⟨done, name, rest, (requested s (done ++ name :: rest)).2, rfl, ?_, ?_, ?_, hsession⟩
  · rcases requested_ends s done with ⟨-, failure', hfailure'⟩ | ⟨-, hservable, -⟩
    · cases hfailure'.symm.trans hdone
    · exact hservable
  · intro hservable
    rcases requested_ends s (done ++ [name]) with ⟨hfaulty, -⟩ | ⟨hok, -⟩
    · exact hfaulty hservable
    · cases hok.symm.trans ((congrArg Prod.fst hfirst).trans hfailure)
  · have htracks := generateEach_tracks (Library.capacity s.library) done (.start h) hdone
    rw [List.nil_append] at htracks
    have hkept := (Tracks.steps s done).generateInto (Library.capacity s.library) name none _
      htracks
    rw [hstop] at hkept
    exact hkept

end Templating.Session
