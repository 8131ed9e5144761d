import Templating.Library.Memory
import Templating.Proofs.Generation.Keeps
import Templating.Session

/-!
# What a request does step by step

A request takes up one template after the other: it reserves the place of the
template and fetches its source. Besides it notes references, parameters and
finished units. The equations say what each of these steps comes to, so that later
proofs need not open the operations again; over a library in memory a template is
reserved and fetched in one go. `Steps.generateInto` says once that what every step
keeps is kept by a whole descent into the calls of a template, whether that
succeeds or fails.
-/

namespace Templating.Session

/-- Where the unit of a template goes: no two units of a batch share it. -/
def slot (c : Configuration) (name : Name) : String × Target :=
  ((Address.ofName name c.package).identifier, (Address.ofName name c.package).target)

/-- The text that is put at a place in the markup. -/
def put (c : Configuration) (place : Interception) : String :=
  match c.hook? with
  | some hook => hook place
  | none => ""

/-- A template depended on another when it was last requested. -/
def DependedOn {L : Type} (s : Session L) (user name : Name) : Prop :=
  ∃ d, s.dependencies.get? user = some d ∧ name ∈ d.order

theorem mem_markStale {L : Type} {s : Session L} {names : List Name} {n : Name} :
    n ∈ (s.markStale names).stale ↔ n ∈ s.stale ∨ n ∈ names := by
  show n ∈ names.foldl (fun stale n => if n ∈ stale then stale else n :: stale) s.stale ↔ _
  generalize s.stale = stale
  induction names generalizing stale with
  | nil => simp
  | cons m names ih =>
      rw [List.foldl_cons, ih, List.mem_cons, ← or_assoc]
      apply or_congr_left
      split
      · rename_i hm
        constructor
        · exact Or.inl
        · rintro (h | rfl)
          · exact h
          · exact hm
      · rw [List.mem_cons, or_comm]

theorem mem_templatesUsing {L : Type} {s : Session L} (h : s.dependencies.Distinct)
    {user name : Name} : user ∈ s.templatesUsing name ↔ DependedOn s user name := by
  unfold templatesUsing Name.sort DependedOn
  rw [List.mem_mergeSort, List.mem_map]
  constructor
  · rintro ⟨⟨n, d⟩, he, rfl⟩
    obtain ⟨hmem, hd⟩ := List.mem_filter.mp he
    exact ⟨d, h.get?_eq_some_iff.mpr hmem, Dependencies.contains_iff.mp hd⟩
  · rintro ⟨d, hget, hd⟩
    exact ⟨(user, d), List.mem_filter.mpr ⟨Table.mem_of_get? hget,
      Dependencies.contains_iff.mpr hd⟩, rfl⟩

/-- What an invalidation puts out of date. -/
theorem mem_invalidate_stale {L : Type} {s : Session L} (h : s.dependencies.Distinct)
    {name n : Name} : n ∈ (s.invalidate name).stale ↔
      n ∈ s.stale ∨ n = name ∨ DependedOn s n name := by
  show n ∈ ((s.markStale [name]).markStale ((s.markStale [name]).templatesUsing name)).stale ↔ _
  have hdependencies : (s.markStale [name]).dependencies.Distinct := h
  rw [mem_markStale, mem_markStale, mem_templatesUsing hdependencies, List.mem_singleton, or_assoc]
  rfl

/-! ## Taking up a template -/

namespace Running

/-- The request has taken up a template. -/
def Took {L : Type} (r : Running L) (name : Name) : Prop :=
  r.request.reserved.get? (slot r.session.configuration name) = some name

/-- The templates whose units are finished, in order. -/
def delivered (r : Running Memory) : List Name :=
  r.request.units.toList.map SourceUnit.template

/-- Those that are out of date once a template has been fetched: if it had
changed and is still there, the templates that depended on it. -/
def handed (r : Running Memory) (name : Name) : List Name :=
  if (r.session.library.sources.get? name).isSome ∧ name ∈ r.session.library.changed then
    r.session.templatesUsing name
  else []

/-- Reserve the place of a template and fetch its source. -/
def takeUp (r : Running Memory) (name : Name) : Running Memory where
  session := { r.session with library := (r.session.library.fetch name).2 }.markStale
    (r.handed name)
  request := (r.reserve (Address.ofName name r.session.configuration.package)).request

variable (r : Running Memory) (name : Name)

@[simp] theorem takeUp_configuration :
    (r.takeUp name).session.configuration = r.session.configuration := rfl

theorem mem_takeUp_changed {n : Name} : n ∈ (r.takeUp name).session.library.changed ↔
    n ∈ r.session.library.changed ∧ n ≠ name := by
  show n ∈ r.session.library.changed.filter (fun m => m ≠ name) ↔ _
  simp

/-- Some template changed, is still there, and another depended on it: taking it
up puts that one out of date. -/
theorem mem_takeUp_stale (h : r.session.dependencies.Distinct) {n : Name} :
    n ∈ (r.takeUp name).session.stale ↔ n ∈ r.session.stale ∨
      (r.session.library.sources.get? name).isSome ∧ name ∈ r.session.library.changed ∧
        DependedOn r.session n name := by
  unfold takeUp
  rw [mem_markStale]
  apply or_congr_right
  unfold handed
  split
  · rename_i hchange
    rw [mem_templatesUsing h]
    constructor
    · exact fun hn => ⟨hchange.1, hchange.2, hn⟩
    · exact fun hn => hn.2.2
  · rename_i hchange
    constructor
    · exact fun hn => absurd hn List.not_mem_nil
    · exact fun hn => absurd ⟨hn.1, hn.2.1⟩ hchange

theorem not_took_of_free {L : Type} {r : Running L} {name : Name}
    (hfree : r.request.reserved.get? (slot r.session.configuration name) = none) :
    ¬r.Took name := by
  unfold Took
  rw [hfree]
  simp

/-- A template is taken up at a free place, and nothing else is. -/
theorem took_reserve {L : Type} {r : Running L} {name : Name}
    (hfree : r.request.reserved.get? (slot r.session.configuration name) = none) {n : Name} :
    (r.reserve (Address.ofName name r.session.configuration.package)).Took n ↔
      r.Took n ∨ n = name := by
  show (r.request.reserved.set (slot r.session.configuration name) name).get?
    (slot r.session.configuration n) = some n ↔ _
  unfold Took
  rw [Table.get?_set]
  split
  · rename_i hslot
    rw [hslot, hfree]
    constructor
    · rintro h
      exact Or.inr (Option.some.inj h).symm
    · rintro (h | rfl)
      · cases h
      · rfl
  · rename_i hslot
    constructor
    · exact Or.inl
    · rintro (h | rfl)
      · exact h
      · exact absurd rfl hslot

theorem took_takeUp
    (hfree : r.request.reserved.get? (slot r.session.configuration name) = none) {n : Name} :
    (r.takeUp name).Took n ↔ r.Took n ∨ n = name :=
  took_reserve hfree

end Running

/-! ## Runs -/

section Run

variable {L : Type} (enter : Enter L) (name : Name) (referencedFrom? : Option Location)
  (r : Running L)

/-- A template whose place is taken is not generated: it has been, or another
template has the place. -/
theorem generateWith_taken [Library L] {holder : Name}
    (h : r.request.reserved.get? (slot r.session.configuration name) = some holder) :
    (generateWith enter name referencedFrom?).run r =
      (if holder = name then .ok (Address.ofName name r.session.configuration.package)
        else .error (.collision (slot r.session.configuration name).1 holder name), r) := by
  unfold generateWith
  unfold slot at h
  simp only [StateT.run_bind, StateT.run_get, pure_bind, h]
  split <;> rfl

/-- A template whose place is free is fetched once the place is reserved, and
generated from its source. -/
theorem generateWith_vacant [Library L]
    (h : r.request.reserved.get? (slot r.session.configuration name) = none) :
    (generateWith enter name referencedFrom?).run r =
      match (fetch name referencedFrom?).run
        (r.reserve (Address.ofName name r.session.configuration.package)) with
      | (.error failure, r') => (.error failure, r')
      | (.ok source, r') => (generateUnit enter
          (Address.ofName name r.session.configuration.package) source).run r' := by
  unfold generateWith
  unfold slot at h
  simp only [StateT.run_bind, StateT.run_get, pure_bind, h, StateT.run_set]
  generalize (fetch name referencedFrom?).run
    (r.reserve (Address.ofName name r.session.configuration.package)) = reached
  obtain ⟨answer, r'⟩ := reached
  cases answer <;> rfl

theorem generateUnit_run (address : Address) (source : String) :
    (generateUnit enter address source).run r =
      match (Generation.generate r.session.configuration.generation (linker enter) address
        source).run r with
      | (.error failure, r') => (.error failure, r')
      | (.ok unit, r') => (.ok address, r'.deliver unit) := by
  unfold generateUnit
  simp only [StateT.run_bind, StateT.run_get, pure_bind]
  generalize (Generation.generate r.session.configuration.generation (linker enter) address
    source).run r = reached
  obtain ⟨answer, r'⟩ := reached
  cases answer <;> rfl

theorem resolveCall_run (call : CallRef) :
    ((linker enter).resolve call).run r =
      match (enter call.name (some ⟨call.caller, call.line⟩)).run
        (r.refer call.caller call.name) with
      | (.error failure, r') => (.error failure, r')
      | (.ok address, r') => (.ok ⟨address, r'.paramsOf call.name⟩, r') := by
  show (resolveCall enter call).run r = _
  unfold resolveCall
  simp only [StateT.run_bind, StateT.run_modify, pure_bind]
  generalize (enter call.name (some ⟨call.caller, call.line⟩)).run
    (r.refer call.caller call.name) = reached
  obtain ⟨answer, r'⟩ := reached
  cases answer <;> rfl

theorem declare_run (params : List Param) :
    ((linker enter).declare name params).run r = ((), r.declare name params) := rfl

theorem intercept_run (place : Interception) :
    ((linker enter).intercept place).run r =
      (put r.session.configuration place,
        if r.session.configuration.hook?.isSome then r.intercepted place else r) := by
  unfold linker put
  cases h : r.session.configuration.hook? with
  | none =>
      simp only [StateT.run_bind, StateT.run_get, pure_bind, h]
      rfl
  | some hook =>
      simp only [StateT.run_bind, StateT.run_get, pure_bind, h]
      rfl

theorem generateEach_cons [Library L] (room : Nat) (rest : List Name) :
    (generateEach room (name :: rest)).run r =
      match (generateInto room name none).run r with
      | (.error failure, r') => (.error failure, r')
      | (.ok _, r') => (generateEach room rest).run (noteDependencies r' name) := by
  rw [generateEach]
  simp only [StateT.run_bind]
  generalize (generateInto room name none).run r = reached
  obtain ⟨answer, r'⟩ := reached
  cases answer <;> rfl

end Run

/-- What a request has come to before the names of a served one are settled. -/
def requested {L : Type} [Library L] (s : Session L) (names : List Name) :
    Except Failure Unit × Running L :=
  (generateEach (Library.capacity s.library) names).run { session := s }

theorem generate_run {L : Type} [Library L] (s : Session L) (names : List Name) :
    (generate names).run s =
      match requested s names with
      | (.ok (), r) => (.ok ⟨r.request.units.toList⟩, r.session.settle names)
      | (.error failure, r) => (.error failure, r.session) := by
  unfold generate requested
  simp only [StateT.run]
  generalize generateEach (Library.capacity s.library) names { session := s } = reached
  obtain ⟨answer, r⟩ := reached
  cases answer <;> rfl

section Memory

variable (enter : Enter Memory) (name : Name) (referencedFrom? : Option Location)
  (r : Running Memory)

theorem fetch_run : (fetch name referencedFrom?).run
      (r.reserve (Address.ofName name r.session.configuration.package)) =
    (match r.session.library.sources.get? name with
      | some source => .ok source
      | none => .error (.notFound name referencedFrom?), r.takeUp name) := by
  have hfetch : Library.fetch r.session.library name =
      (Except.ok (r.session.library.sources.get? name), (r.session.library.fetch name).2) := rfl
  have hchanged : Library.hasChanged r.session.library name =
      decide (name ∈ r.session.library.changed) := rfl
  unfold fetch Running.takeUp Running.handed
  cases h : r.session.library.sources.get? name with
  | none =>
      rw [h] at hfetch
      simp only [bind_pure_comp, Running.reserve, StateT.run_bind, StateT.run_get, pure_bind,
        hfetch, StateT.run_map, StateT.run_set, map_pure, Option.isSome_none, Bool.false_eq_true,
        false_and, ↓reduceIte]
      rfl
  | some source =>
      rw [h] at hfetch
      simp only [bind_pure_comp, Running.reserve, StateT.run_bind, StateT.run_get, pure_bind,
        hfetch, hchanged, decide_eq_true_eq, StateT.run_map, StateT.run_set, map_pure,
        Option.isSome_some, true_and]
      rfl

/-- A template whose place is free is taken up and generated from its source. -/
theorem generateWith_free
    (h : r.request.reserved.get? (slot r.session.configuration name) = none) :
    (generateWith enter name referencedFrom?).run r =
      match r.session.library.sources.get? name with
      | some source =>
          (generateUnit enter (Address.ofName name r.session.configuration.package) source).run
            (r.takeUp name)
      | none => (.error (.notFound name referencedFrom?), r.takeUp name) := by
  rw [generateWith_vacant enter name referencedFrom? r h, fetch_run]
  cases r.session.library.sources.get? name <;> rfl

end Memory

/-! ## What every step keeps -/

section Steps

variable {L : Type} [Library L]

/-- Each step of a request keeps the property `P`. -/
structure Steps (P : Running L → Prop) : Prop where
  refer : ∀ r caller callee, P r → P (r.refer caller callee)
  declare : ∀ r name params, P r → P (r.declare name params)
  intercepted : ∀ r place, P r → P (r.intercepted place)
  deliver : ∀ r unit, P r → P (r.deliver unit)
  fetch : ∀ r name referencedFrom?,
    r.request.reserved.get? (slot r.session.configuration name) = none → P r →
      P ((fetch name referencedFrom?).run
        (r.reserve (Address.ofName name r.session.configuration.package))).2

namespace Steps

variable {P : Running L → Prop} (hP : Steps P) {enter : Enter L}

include hP

theorem linker (h : ∀ name referencedFrom?, Keeps P (enter name referencedFrom?)) :
    Generation.Preserves P (linker enter) where
  resolve call := by
    intro r hr
    rw [resolveCall_run]
    have hentered := h call.name (some ⟨call.caller, call.line⟩) _
      (hP.refer r call.caller call.name hr)
    generalize (enter call.name (some ⟨call.caller, call.line⟩)).run
      (r.refer call.caller call.name) = reached at hentered
    obtain ⟨answer, r'⟩ := reached
    cases answer <;> exact hentered
  declare name params := by
    intro r hr
    rw [declare_run]
    exact hP.declare r name params hr
  intercept place := by
    intro r hr
    rw [intercept_run]
    simp only
    split
    · exact hP.intercepted r place hr
    · exact hr

theorem generateWith (h : ∀ name referencedFrom?, Keeps P (enter name referencedFrom?))
    (name : Name) (referencedFrom? : Option Location) :
    Keeps P (generateWith enter name referencedFrom?) := by
  intro r hr
  cases hslot : r.request.reserved.get? (slot r.session.configuration name) with
  | some holder =>
      rw [generateWith_taken enter name referencedFrom? r hslot]
      exact hr
  | none =>
      have hfetched := hP.fetch r name referencedFrom? hslot hr
      rw [generateWith_vacant enter name referencedFrom? r hslot]
      generalize (Session.fetch name referencedFrom?).run
        (r.reserve (Address.ofName name r.session.configuration.package)) = reached at hfetched
      obtain ⟨answer, r'⟩ := reached
      cases answer with
      | error failure => exact hfetched
      | ok source =>
          simp only
          rw [generateUnit_run]
          have hgenerated := (hP.linker h).generate r'.session.configuration.generation
            (Address.ofName name r.session.configuration.package) source _ hfetched
          generalize (Generation.generate r'.session.configuration.generation
            (Session.linker enter) (Address.ofName name r.session.configuration.package)
            source).run r' = reached at hgenerated
          obtain ⟨answer, r''⟩ := reached
          cases answer with
          | error failure => exact hgenerated
          | ok unit => exact hP.deliver r'' unit hgenerated

/-- **What every step keeps is kept by a descent**, whatever it comes to. -/
theorem generateInto (room : Nat) (name : Name) (referencedFrom? : Option Location) :
    Keeps P (generateInto room name referencedFrom?) := by
  induction room generalizing name referencedFrom? with
  | zero =>
      apply hP.generateWith
      intro name referencedFrom?
      exact Keeps.pure _
  | succ room ih => exact hP.generateWith ih name referencedFrom?

theorem generateEach (hnote : ∀ r name, P r → P (noteDependencies r name)) (room : Nat)
    (names : List Name) : Keeps P (generateEach room names) := by
  intro r hr
  induction names generalizing r with
  | nil => exact hr
  | cons name rest ih =>
      have hentered := hP.generateInto room name none r hr
      rw [generateEach_cons]
      generalize (Session.generateInto room name none).run r = reached at hentered
      obtain ⟨answer, r'⟩ := reached
      cases answer with
      | error failure => exact hentered
      | ok address => exact ih _ (hnote r' name hentered)

end Steps

end Steps

end Templating.Session
