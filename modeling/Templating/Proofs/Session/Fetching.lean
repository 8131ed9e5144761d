import Templating.Proofs.Generation.View
import Templating.Proofs.Session.Step

/-!
# What a request fetches

A library may keep a record of what is fetched from it. A request over it goes the
same way as over the library alone, and the record shows that it fetches no
template twice: it reserves the place of a template before it fetches the source,
and fetches nothing whose place is taken.
-/

namespace Templating

/-- A library with a record of what was fetched from it, last first. -/
structure Recorded (L : Type) where
  library : L
  fetched : List Name := []

instance {L : Type} [Library L] : Library (Recorded L) where
  fetch l name :=
    ((Library.fetch l.library name).1, ⟨(Library.fetch l.library name).2, name :: l.fetched⟩)
  hasChanged l name := Library.hasChanged l.library name
  names l := Library.names l.library
  capacity l := Library.capacity l.library

namespace Session

variable {L : Type}

/-- The session over another library. -/
def withLibrary {L' : Type} (s : Session L) (library : L') : Session L' where
  configuration := s.configuration
  library := library
  dependencies := s.dependencies
  params := s.params
  addresses := s.addresses
  stale := s.stale
  intercepted := s.intercepted

/-- The session with a record of what it fetches from now on. -/
def recorded (s : Session L) : Session (Recorded L) :=
  s.withLibrary { library := s.library }

/-- The session without its record. -/
def unrecorded (s : Session (Recorded L)) : Session L :=
  s.withLibrary s.library.library

def Running.unrecorded (r : Running (Recorded L)) : Running L :=
  ⟨r.session.unrecorded, r.request⟩

section Unrecorded

variable {enter : Enter (Recorded L)} {plain : Enter L}

theorem fetch_unrecorded [Library L] (name : Name) (referencedFrom? : Option Location)
    (r : Running (Recorded L)) : (fetch name referencedFrom?).run r.unrecorded =
      Prod.map id Running.unrecorded ((fetch name referencedFrom?).run r) := by
  have hrecorded : (Library.fetch r.session.library name).1 =
      (Library.fetch r.session.library.library name).1 := rfl
  have hplain : (Library.fetch r.unrecorded.session.library name).1 =
      (Library.fetch r.session.library.library name).1 := rfl
  unfold fetch
  simp only [StateT.run_bind, StateT.run_get, pure_bind, hrecorded, hplain]
  rcases (Library.fetch r.session.library.library name).1 with fault | _ | source
  · rfl
  · rfl
  · rfl

variable (h : ∀ name referencedFrom? r, (plain name referencedFrom?).run r.unrecorded =
  Prod.map id Running.unrecorded ((enter name referencedFrom?).run r))

include h

theorem linker_unrecorded (caller : Name) (callable : List Name) :
    Generation.Shows (linker enter) (linker plain) Running.unrecorded caller callable
      fun _ => True where
  resolve r call _ _ _ := by
    refine ⟨?_, fun _ => trivial⟩
    rw [resolveCall_run, resolveCall_run]
    have hentered := h call.name (some ⟨call.caller, call.line⟩) (r.refer call.caller call.name)
    rw [show r.unrecorded.refer call.caller call.name =
      (r.refer call.caller call.name).unrecorded from rfl, hentered]
    generalize (enter call.name (some ⟨call.caller, call.line⟩)).run
      (r.refer call.caller call.name) = reached
    obtain ⟨answer, r'⟩ := reached
    cases answer <;> rfl
  intercept r place _ := by
    refine ⟨?_, trivial⟩
    rw [intercept_run, intercept_run]
    show _ = (_, Running.unrecorded (if r.session.configuration.hook?.isSome then _ else r))
    rw [apply_ite Running.unrecorded]
    rfl

theorem generateWith_unrecorded [Library L] (name : Name) (referencedFrom? : Option Location)
    (r : Running (Recorded L)) :
    (generateWith plain name referencedFrom?).run r.unrecorded =
      Prod.map id Running.unrecorded ((generateWith enter name referencedFrom?).run r) := by
  cases hslot : r.request.reserved.get? (slot r.session.configuration name) with
  | some holder =>
      rw [generateWith_taken enter name referencedFrom? r hslot,
        generateWith_taken plain name referencedFrom? r.unrecorded hslot]
      rfl
  | none =>
      rw [generateWith_vacant enter name referencedFrom? r hslot,
        generateWith_vacant plain name referencedFrom? r.unrecorded hslot]
      have hfetched := fetch_unrecorded name referencedFrom?
        (r.reserve (Address.ofName name r.session.configuration.package))
      rw [show r.unrecorded.reserve
          (Address.ofName name r.unrecorded.session.configuration.package) =
        (r.reserve (Address.ofName name r.session.configuration.package)).unrecorded from rfl,
        hfetched]
      generalize (fetch name referencedFrom?).run
        (r.reserve (Address.ofName name r.session.configuration.package)) = reached
      obtain ⟨answer, r'⟩ := reached
      cases answer with
      | error failure => rfl
      | ok source =>
          have hgenerated : (Generation.generate r'.session.configuration.generation (linker plain)
              (Address.ofName name r.session.configuration.package) source).run r'.unrecorded =
                Prod.map id Running.unrecorded ((Generation.generate
                  r'.session.configuration.generation (linker enter)
                  (Address.ofName name r.session.configuration.package) source).run r') :=
            Generation.generate_shows _ (linker_unrecorded h _ _) rfl trivial
          show (generateUnit plain (Address.ofName name r.session.configuration.package) source).run
            r'.unrecorded = _
          simp only
          rw [generateUnit_run, generateUnit_run]
          rw [show r'.unrecorded.session.configuration = r'.session.configuration from rfl,
            hgenerated]
          generalize (Generation.generate r'.session.configuration.generation (linker enter)
            (Address.ofName name r.session.configuration.package) source).run r' = reached
          obtain ⟨answer, r''⟩ := reached
          cases answer <;> rfl

end Unrecorded

variable [Library L]

theorem generateInto_unrecorded (room : Nat) (name : Name) (referencedFrom? : Option Location)
    (r : Running (Recorded L)) :
    (generateInto room name referencedFrom?).run r.unrecorded =
      Prod.map id Running.unrecorded ((generateInto room name referencedFrom?).run r) := by
  induction room generalizing name referencedFrom? r with
  | zero =>
      apply generateWith_unrecorded
      intro name referencedFrom? r
      rfl
  | succ room ih => exact generateWith_unrecorded ih name referencedFrom? r

theorem generateEach_unrecorded (room : Nat) (names : List Name) (r : Running (Recorded L)) :
    (generateEach room names).run r.unrecorded =
      Prod.map id Running.unrecorded ((generateEach room names).run r) := by
  induction names generalizing r with
  | nil => rfl
  | cons name rest ih =>
      rw [generateEach_cons, generateEach_cons, generateInto_unrecorded]
      generalize (generateInto room name none).run r = reached
      obtain ⟨answer, r'⟩ := reached
      cases answer with
      | error failure => rfl
      | ok address => exact ih (noteDependencies r' name)

/-- **Keeping a record makes no difference to a request.** -/
theorem generate_unrecorded (names : List Name) (s : Session (Recorded L)) :
    (generate names).run s.unrecorded =
      Prod.map id unrecorded ((generate names).run s) := by
  have hrequested : requested s.unrecorded names =
      Prod.map id Running.unrecorded (requested s names) :=
    generateEach_unrecorded _ names { session := s }
  rw [generate_run, generate_run, hrequested]
  generalize requested s names = reached
  obtain ⟨answer, r⟩ := reached
  cases answer <;> rfl

/-! ## No template is fetched twice -/

/-- What has been fetched, each template once, has been taken up. -/
structure FetchedOnce (r : Running (Recorded L)) : Prop where
  nodup : r.session.library.fetched.Nodup
  took : ∀ n ∈ r.session.library.fetched, r.Took n

theorem fetch_state (name : Name) (referencedFrom? : Option Location)
    (r : Running (Recorded L)) :
    ((fetch name referencedFrom?).run r).2.request = r.request ∧
      ((fetch name referencedFrom?).run r).2.session.configuration = r.session.configuration ∧
      ((fetch name referencedFrom?).run r).2.session.library.fetched =
        name :: r.session.library.fetched := by
  unfold fetch
  simp only [StateT.run_bind, StateT.run_get, pure_bind]
  split <;> exact ⟨rfl, rfl, rfl⟩

theorem fetchedOnce_steps : Steps (FetchedOnce (L := L)) where
  refer _ _ _ h := ⟨h.nodup, h.took⟩
  declare _ _ _ h := ⟨h.nodup, h.took⟩
  intercepted _ _ h := ⟨h.nodup, h.took⟩
  deliver _ _ h := ⟨h.nodup, h.took⟩
  fetch r name referencedFrom? hfree h := by
    obtain ⟨hrequest, hconfiguration, hfetched⟩ := fetch_state name referencedFrom?
      (r.reserve (Address.ofName name r.session.configuration.package))
    generalize ((fetch name referencedFrom?).run
      (r.reserve (Address.ofName name r.session.configuration.package))).2 = r' at *
    have htook (n : Name) : r'.Took n ↔ r.Took n ∨ n = name := by
      rw [← Running.took_reserve hfree]
      unfold Running.Took
      rw [hrequest, hconfiguration]
    constructor
    · rw [hfetched]
      refine List.nodup_cons.mpr ⟨?_, h.nodup⟩
      intro hname
      exact Running.not_took_of_free hfree (h.took name hname)
    · intro n hn
      rw [hfetched] at hn
      rcases List.mem_cons.mp hn with rfl | hn
      · exact (htook n).mpr (Or.inr rfl)
      · exact (htook n).mpr (Or.inl (h.took n hn))

/-- **A request fetches no template twice**, whatever it comes to. -/
theorem fetched_nodup (s : Session L) (names : List Name) :
    ((generate names).run s.recorded).2.library.fetched.Nodup := by
  have hstart : FetchedOnce { session := s.recorded : Running (Recorded L) } :=
    ⟨List.nodup_nil, by simp [recorded, withLibrary]⟩
  have hend : FetchedOnce (requested s.recorded names).2 :=
    fetchedOnce_steps.generateEach (fun _ _ h => ⟨h.nodup, h.took⟩) _ names _ hstart
  rw [generate_run]
  generalize requested s.recorded names = reached at hend
  obtain ⟨answer, r⟩ := reached
  cases answer <;> exact hend.nodup

end Session

end Templating
