import Templating.Proofs.Session.Batch
import Templating.Proofs.Session.Fetching

/-!
# Requests over any library

A request fetches a template once its place is reserved, so it asks its library
for no template twice, and a library that answers differently the next time is not
found out. To a request that is served the library is a table of the sources that it
drew: over a memory with just these it goes the same way. So what holds of the
requests over a memory holds of the requests over every library, with the sources
that were drawn in place of those that the memory has.
-/

namespace Templating

/-! ## Sources drawn from a library -/

section Draw

variable {L : Type} [Library L]

/-- Fetching these templates one after the other gives these sources, and leads the
library from one state to another. -/
inductive Draws : L → List (Name × String) → L → Prop
  | nothing (l : L) : Draws l [] l
  | fetched {l l' : L} {n : Name} {source : String} {drawn : List (Name × String)}
      (h : (Library.fetch l n).1 = .ok (some source))
      (rest : Draws (Library.fetch l n).2 drawn l') : Draws l ((n, source) :: drawn) l'

/-- The sources can be fetched from the library one after the other, no template
twice. -/
def Drawn (l : L) (sources : Table Name String) : Prop :=
  sources.Distinct ∧ ∃ l', Draws l sources.entries l'

theorem Draws.append {l l' l'' : L} {drawn drawn' : List (Name × String)}
    (h : Draws l drawn l') (h' : Draws l' drawn' l'') : Draws l (drawn ++ drawn') l'' := by
  induction h with
  | nothing => exact h'
  | fetched hfetch _ ih => exact .fetched hfetch (ih h')

end Draw

/-- What is drawn from a memory is what it has. -/
theorem Drawn.get?_memory {m : Memory} {sources : Table Name String} (h : Drawn m sources)
    {n : Name} {source : String} (hn : sources.get? n = some source) :
    m.sources.get? n = some source := by
  obtain ⟨-, m', hdraws⟩ := h
  have hmem := Table.mem_of_get? hn
  generalize sources.entries = drawn at hdraws hmem
  induction hdraws with
  | nothing => cases hmem
  | fetched hfetch _ ih =>
      rcases List.mem_cons.mp hmem with heq | hmem
      · cases heq
        exact Except.ok.inj hfetch
      · exact ih hmem

namespace Session

variable {L : Type}

/-- The request as it stands, over a memory with these sources in which nothing has
changed. -/
def Running.over (r : Running L) (sources : Table Name String) : Running Memory :=
  ⟨{ r.session.withLibrary ({ sources } : Memory) with stale := [] }, r.request⟩

variable [Library L]

/-- From one state to the other the request drew these sources, of templates that it
had not taken up before. -/
structure Drew (r : Running L) (drawn : List (Name × String)) (r' : Running L) : Prop where
  configuration : r'.session.configuration = r.session.configuration
  draws : Draws r.session.library drawn r'.session.library
  took : ∀ n, r.Took n → r'.Took n
  fresh : ∀ n ∈ drawn.map Prod.fst, ¬r.Took n ∧ r'.Took n
  nodup : (drawn.map Prod.fst).Nodup

namespace Drew

variable {r r' r'' : Running L} {drawn drawn' : List (Name × String)}

/-- A step that neither fetches nor reserves anything draws nothing. -/
theorem idle (hconfiguration : r'.session.configuration = r.session.configuration)
    (hlibrary : r'.session.library = r.session.library)
    (hreserved : r'.request.reserved = r.request.reserved) : Drew r [] r' where
  configuration := hconfiguration
  draws := by
    rw [hlibrary]
    exact .nothing _
  took n hn := by
    unfold Running.Took
    rw [hconfiguration, hreserved]
    exact hn
  fresh n hn := by cases hn
  nodup := List.nodup_nil

theorem trans (h : Drew r drawn r') (h' : Drew r' drawn' r'') : Drew r (drawn ++ drawn') r'' where
  configuration := h'.configuration.trans h.configuration
  draws := h.draws.append h'.draws
  took n hn := h'.took n (h.took n hn)
  fresh n hn := by
    rw [List.map_append, List.mem_append] at hn
    rcases hn with hn | hn
    · exact ⟨(h.fresh n hn).1, h'.took n (h.fresh n hn).2⟩
    · exact ⟨fun htook => (h'.fresh n hn).1 (h.took n htook), (h'.fresh n hn).2⟩
  nodup := by
    rw [List.map_append]
    refine List.nodup_append.mpr ⟨h.nodup, h'.nodup, ?_⟩
    rintro n hn _ hn' rfl
    exact (h'.fresh n hn').1 (h.fresh n hn).2

/-- The request has reserved a place for every template that it drew. -/
theorem length_le (h : Drew r drawn r') : drawn.length ≤ r'.request.reserved.size := by
  have hsub : drawn.map Prod.fst ⊆ r'.request.reserved.entries.map Prod.snd := by
    intro n hn
    exact List.mem_map.mpr ⟨_, Table.mem_of_get? (h.fresh n hn).2, rfl⟩
  have hle := (List.Nodup.subperm h.nodup hsub).length_le
  rwa [List.length_map, List.length_map] at hle

end Drew

/-- What `x` comes to, if it comes to something, `y` comes to over a memory with the
sources that `x` draws. -/
def Mirrors {α : Type} (x : StateM (Running L) (Except Failure α))
    (y : StateM (Running Memory) (Except Failure α)) : Prop :=
  ∀ r a r', x.run r = (.ok a, r') → ∃ drawn, Drew r drawn r' ∧
    ∀ sources : Table Name String, (∀ e ∈ drawn, sources.get? e.1 = some e.2) →
      y.run (r.over sources) = (.ok a, r'.over sources)

/-! ## Units -/

section Unit

variable {enter : Enter L} {plain : Enter Memory}
  (h : ∀ name referencedFrom?, Mirrors (enter name referencedFrom?) (plain name referencedFrom?))

include h

/-- A call that is answered is answered alike. -/
theorem mirrors_resolve (call : CallRef) :
    Mirrors ((linker enter).resolve call) ((linker plain).resolve call) := by
  intro r callee r' hrun
  rw [resolveCall_run] at hrun
  cases hentered : (enter call.name (some ⟨call.caller, call.line⟩)).run
      (r.refer call.caller call.name) with
  | mk answer s =>
      rw [hentered] at hrun
      cases answer with
      | error failure => cases hrun
      | ok address =>
          cases hrun
          obtain ⟨drawn, hdrew, hmirrors⟩ := h _ _ _ _ _ hentered
          have hrefer : Drew r [] (r.refer call.caller call.name) := .idle rfl rfl rfl
          refine ⟨drawn, hrefer.trans hdrew, ?_⟩
          intro sources hsources
          rw [resolveCall_run, show (r.over sources).refer call.caller call.name =
            (r.refer call.caller call.name).over sources from rfl, hmirrors sources hsources]
          rfl

/-- **A run over the content** that no call fails goes alike. -/
theorem mirrors_run (setting : Generation.Setting) (signals : List Scan.Signal)
    (hcontent : ∀ e ∈ signals.filterMap Scan.Signal.event?, Scan.OfContent e)
    {p q : Generation.Progress} {r r' : Running L}
    (hrun : (signals.foldlM (Generation.Progress.take setting (linker enter)) p).run r = (q, r'))
    (hq : q.failure? = none) : ∃ drawn, Drew r drawn r' ∧
      ∀ sources : Table Name String, (∀ e ∈ drawn, sources.get? e.1 = some e.2) →
        (signals.foldlM (Generation.Progress.take setting (linker plain)) p).run
          (r.over sources) = (q, r'.over sources) := by
  induction signals generalizing p r with
  | nil =>
      cases hrun
      exact ⟨[], .idle rfl rfl rfl, fun _ _ => rfl⟩
  | cons x signals ih =>
      cases x with
      | problem problem => exact ih hcontent (p := p.addDiagnostic problem.diagnostic) hrun
      | event e =>
          obtain ⟨he, hrest⟩ := List.forall_mem_cons.mp
            (show ∀ x ∈ e :: signals.filterMap Scan.Signal.event?, Scan.OfContent x from hcontent)
          obtain ⟨hp, hnext⟩ := Generation.run_event_succeeded ((congrArg (·.1.failure?) hrun).trans hq)
          rw [Generation.run_cons] at hrun
          simp only [Generation.run_cons]
          simp only [Generation.Progress.take] at hrun ⊢
          rcases Generation.Progress.takeEvent_content setting hp he with
            ⟨-, p', htake⟩ | ⟨-, place, htake⟩ | ⟨call, arguments, -, -, htake⟩
          · rw [htake] at hrun
            simp only [htake]
            exact ih hrest hrun
          · rw [htake, intercept_run] at hrun
            simp only [htake, intercept_run, Prod.map_fst, Prod.map_snd, id_eq] at hrun ⊢
            obtain ⟨drawn, hdrew, hmirrors⟩ := ih hrest hrun
            have hidle : Drew r [] (if r.session.configuration.hook?.isSome = true then
                r.intercepted place else r) := by
              split <;> exact .idle rfl rfl rfl
            refine ⟨drawn, hidle.trans hdrew, ?_⟩
            intro sources hsources
            rw [← hmirrors sources hsources, apply_ite (Running.over · sources)]
            rfl
          · rw [htake] at hrun hnext
            simp only [htake, Prod.map_fst, Prod.map_snd, id_eq] at hrun hnext ⊢
            cases hresolved : ((linker enter).resolve call).run r with
            | mk answer s =>
                rw [hresolved] at hrun hnext
                cases answer with
                | error failure => cases hnext
                | ok callee =>
                    obtain ⟨drawn, hdrew, hmirrors⟩ := mirrors_resolve h call r callee s hresolved
                    obtain ⟨drawn', hdrew', hmirrors'⟩ := ih hrest hrun
                    refine ⟨drawn ++ drawn', hdrew.trans hdrew', ?_⟩
                    intro sources hsources
                    obtain ⟨hfirst, hsecond⟩ := List.forall_mem_append.mp hsources
                    rw [hmirrors sources hfirst]
                    exact hmirrors' sources hsecond

theorem mirrors_generate (setting : Generation.Setting) (address : Address) (source : String) :
    Mirrors (Generation.generate setting (linker enter) address source)
      (Generation.generate setting (linker plain) address source) := by
  intro r unit r' hrun
  obtain ⟨p, content, -, -, -, hcontent, -, hprogress⟩ :=
    Generation.progress_content setting address source
  have hunit := Generation.generate_fst setting (linker enter) address source r
  have hstate := Generation.generate_snd setting (linker enter) address source r
  rw [hrun] at hunit hstate
  cases hreached : (Generation.progress setting (linker enter) address address.kind source).run
      r with
  | mk q s =>
      rw [hreached] at hunit hstate
      obtain rfl : r' = s := hstate
      obtain ⟨-, hfailure, -⟩ := Generation.Progress.finish_eq_ok hunit.symm
      obtain ⟨drawn, hdrew, hmirrors⟩ := mirrors_run h setting content hcontent
        ((hprogress (linker enter) r).symm.trans hreached) hfailure
      have hdeclare : Drew r [] (r.declare address.template
          (Generation.declared setting address.template source)) := .idle rfl rfl rfl
      refine ⟨drawn, hdeclare.trans hdrew, ?_⟩
      intro sources hsources
      have hplain := (hprogress (linker plain) (r.over sources)).trans (hmirrors sources hsources)
      apply Prod.ext
      · rw [Generation.generate_fst, hplain]
        exact hunit.symm
      · rw [Generation.generate_snd, hplain]

theorem mirrors_generateUnit (address : Address) (source : String) :
    Mirrors (generateUnit enter address source) (generateUnit plain address source) := by
  intro r a r' hrun
  rw [generateUnit_run] at hrun
  cases hgenerated : (Generation.generate r.session.configuration.generation (linker enter) address
      source).run r with
  | mk answer s =>
      rw [hgenerated] at hrun
      cases answer with
      | error failure => cases hrun
      | ok unit =>
          cases hrun
          obtain ⟨drawn, hdrew, hmirrors⟩ := mirrors_generate h _ address source _ _ _ hgenerated
          have hdeliver : Drew s [] (s.deliver unit) := .idle rfl rfl rfl
          refine ⟨drawn, ?_, ?_⟩
          · simpa using hdrew.trans hdeliver
          · intro sources hsources
            rw [generateUnit_run]
            rw [show (r.over sources).session.configuration = r.session.configuration from rfl,
              hmirrors sources hsources]
            rfl

end Unit

/-! ## Descents -/

/-- A fetch that gives a source leaves the library behind it, and nothing else that
shows over a memory. -/
theorem fetch_ok {name : Name} {referencedFrom? : Option Location} {r r' : Running L}
    {source : String} (h : (fetch name referencedFrom?).run r = (.ok source, r')) :
    (Library.fetch r.session.library name).1 = .ok (some source) ∧
      ∃ stale, r' = { r with session :=
        { r.session with library := (Library.fetch r.session.library name).2, stale } } := by
  unfold fetch at h
  simp only [StateT.run_bind, StateT.run_get, pure_bind] at h
  cases hfetched : Library.fetch r.session.library name with
  | mk answer library =>
      rw [hfetched] at h
      rcases answer with fault | _ | source'
      · cases h
      · cases h
      · cases h
        exact ⟨rfl, _, rfl⟩

/-- A template goes alike if its callees do. -/
theorem mirrors_generateWith {enter : Enter L} {plain : Enter Memory}
    (h : ∀ name referencedFrom?, Mirrors (enter name referencedFrom?) (plain name referencedFrom?))
    (name : Name) (referencedFrom? : Option Location) :
    Mirrors (generateWith enter name referencedFrom?)
      (generateWith plain name referencedFrom?) := by
  intro r address r' hrun
  cases hslot : r.request.reserved.get? (slot r.session.configuration name) with
  | some holder =>
      rw [generateWith_taken enter name referencedFrom? r hslot] at hrun
      by_cases hholder : holder = name
      · rw [if_pos hholder] at hrun
        cases hrun
        refine ⟨[], .idle rfl rfl rfl, ?_⟩
        intro sources _
        rw [generateWith_taken plain name referencedFrom? (r.over sources) hslot, if_pos hholder]
        rfl
      · rw [if_neg hholder] at hrun
        cases hrun
  | none =>
      rw [generateWith_vacant enter name referencedFrom? r hslot] at hrun
      cases hfetched : (fetch name referencedFrom?).run
          (r.reserve (Address.ofName name r.session.configuration.package)) with
      | mk answer s =>
          rw [hfetched] at hrun
          cases answer with
          | error failure => cases hrun
          | ok source =>
              obtain ⟨hsource, stale, rfl⟩ := fetch_ok hfetched
              have hdrew := mirrors_generateUnit h _ _ _ _ _ hrun
              obtain ⟨drawn, hdrew, hmirrors⟩ := hdrew
              refine ⟨[(name, source)] ++ drawn, Drew.trans ?_ hdrew, ?_⟩
              · constructor
                case configuration => rfl
                case draws => exact .fetched hsource (.nothing _)
                case took => exact fun n hn => (Running.took_reserve hslot).mpr (Or.inl hn)
                case fresh =>
                  intro n hn
                  obtain rfl : n = name := by simpa using hn
                  exact ⟨Running.not_took_of_free hslot,
                    (Running.took_reserve hslot).mpr (Or.inr rfl)⟩
                case nodup => exact List.nodup_singleton _
              · intro sources hsources
                obtain ⟨hname, hrest⟩ := List.forall_mem_cons.mp hsources
                rw [generateWith_free plain name referencedFrom? (r.over sources) hslot,
                  show (r.over sources).session.library.sources.get? name = some source from hname]
                have hhanded : (r.over sources).handed name = [] := by
                  simp [Running.handed, Running.over, withLibrary]
                have htaken : (r.over sources).takeUp name = Running.over { r.reserve
                    (Address.ofName name r.session.configuration.package) with session :=
                      { r.session with
                        library := (Library.fetch r.session.library name).2, stale } } sources := by
                  unfold Running.takeUp
                  rw [hhanded]
                  rfl
                simp only
                rw [htaken]
                exact hmirrors sources hrest

/-- **A descent goes alike**, with as much room or more. -/
theorem mirrors_generateInto {room room' : Nat} (hroom : room ≤ room') (name : Name)
    (referencedFrom? : Option Location) :
    Mirrors (generateInto (L := L) room name referencedFrom?)
      (generateInto (L := Memory) room' name referencedFrom?) := by
  induction room generalizing room' name referencedFrom? with
  | zero =>
      -- Where the descent is cut off nothing is come to.
      have hbottom (enter : Enter Memory) (name : Name) (referencedFrom? : Option Location) :
          Mirrors (L := L) (pure (.error (.notFound name referencedFrom?)))
            (enter name referencedFrom?) := by
        intro r a r' hrun
        cases hrun
      cases room' with
      | zero => exact mirrors_generateWith (hbottom _) name referencedFrom?
      | succ room' => exact mirrors_generateWith (hbottom _) name referencedFrom?
  | succ room ih =>
      obtain ⟨room', rfl⟩ := Nat.exists_eq_succ_of_ne_zero (Nat.ne_zero_of_lt hroom)
      exact mirrors_generateWith (ih (Nat.le_of_succ_le_succ hroom)) name referencedFrom?

theorem mirrors_generateEach {room room' : Nat} (hroom : room ≤ room') (names : List Name) :
    Mirrors (generateEach (L := L) room names) (generateEach (L := Memory) room' names) := by
  induction names with
  | nil =>
      intro r a r' hrun
      cases hrun
      exact ⟨[], .idle rfl rfl rfl, fun _ _ => rfl⟩
  | cons name rest ih =>
      intro r a r' hrun
      rw [generateEach_cons] at hrun
      cases hentered : (generateInto room name none).run r with
      | mk answer s =>
          rw [hentered] at hrun
          cases answer with
          | error failure => cases hrun
          | ok address =>
              obtain ⟨drawn, hdrew, hmirrors⟩ :=
                mirrors_generateInto hroom name none _ _ _ hentered
              obtain ⟨drawn', hdrew', hmirrors'⟩ := ih _ _ _ hrun
              have hnote : Drew s [] (noteDependencies s name) := .idle rfl rfl rfl
              refine ⟨drawn ++ drawn', hdrew.trans (hnote.trans hdrew'), ?_⟩
              intro sources hsources
              obtain ⟨hfirst, hsecond⟩ := List.forall_mem_append.mp hsources
              rw [generateEach_cons, hmirrors sources hfirst]
              exact hmirrors' sources hsecond

/-! ## Whole requests -/

/-- **A served request delivers what it is about, whatever its library is**: the
batch is what the sources make it that the request drew. -/
theorem batched_of_ok {s : Session L} {names : List Name} {batch : Batch}
    (h : ((generate names).run s).1 = .ok batch) : ∃ sources, Drawn s.library sources ∧
      Batched s.configuration sources names batch.units ∧
      Servable s.configuration sources names := by
  rw [generate_run] at h
  cases hrequested : requested s names with
  | mk answer r =>
      rw [hrequested] at h
      cases answer with
      | error failure => cases h
      | ok _ =>
          cases h
          have hroom : Library.capacity s.library ≤
              max (Library.capacity s.library) r.request.reserved.size := Nat.le_max_left _ _
          obtain ⟨drawn, hdrew, hmirrors⟩ := mirrors_generateEach hroom names _ _ _ hrequested
          have hdistinct : (⟨drawn⟩ : Table Name String).Distinct := hdrew.nodup
          have hover := hmirrors ⟨drawn⟩ fun e he => hdistinct.get?_eq_some_iff.mpr he
          have hsize : (⟨drawn⟩ : Table Name String).size ≤
              max (Library.capacity s.library) r.request.reserved.size :=
            Nat.le_trans hdrew.length_le (Nat.le_max_right _ _)
          have hstart : Descent s.configuration ⟨drawn⟩ names []
              (Running.over { session := s } ⟨drawn⟩) :=
            Descent.start (s := (Running.over { session := s } ⟨drawn⟩).session) names
          rcases generateEach_ends hsize names hstart (List.Subset.refl names) with
            ⟨-, failure, hfailure⟩ | ⟨-, hdescent, htook, -⟩
          · rw [hover] at hfailure
            cases hfailure
          · rw [hover] at hdescent htook
            have hbatched := hdescent.batched fun n hn => htook n (Or.inr hn)
            refine ⟨⟨drawn⟩, ⟨hdistinct, _, hdrew.draws⟩, hbatched, hbatched.servable ?_⟩
            have htook' (n : Name) (hn : Within s.configuration ⟨drawn⟩ names n) :
                (r.over ⟨drawn⟩).Took n :=
              (hdescent.took n).mpr (Or.inr ((hbatched.templates n).mpr hn))
            intro a b ha hb
            exact hdescent.apart (htook' a ha) (htook' b hb)

end Session

end Templating
