import Templating.Proofs.Generation.View
import Templating.Proofs.Session.Run

/-!
# What a request comes to

What a request comes to can be worked out from the configuration and the sources
alone: descend into the calls of a template before it is finished, and bind every
call against the parameters that the source of its callee declares. `outcome` does
that and keeps nothing from one request to the next.

Every session answers as it does, with the same units in the same order or with the
same failure. So nothing that a session remembers of earlier requests, edits and
invalidations shows in its answers; in particular no call is bound against
parameters that an earlier request has left behind.
-/

namespace Templating.Session

/-- What shows of a request in its answer. -/
structure Course where
  units : Array SourceUnit := #[]
  /-- Which template has an identifier in a target. -/
  reserved : Table (String × Target) Name := {}

namespace Course

/-- Generates a template that a call refers to. -/
abbrev Enter : Type := Name → Option Location → StateM Course (Except Failure Address)

section

variable (c : Configuration) (sources : Table Name String)

/-- A call is bound against the parameters that the source of its callee declares. -/
def linker (enter : Course.Enter) : Linker Course where
  resolve call := do
    match ← enter call.name (some ⟨call.caller, call.line⟩) with
    | .error failure => return .error failure
    | .ok _ => return .ok (calleeFor c sources call.name)
  declare _ _ := return ()
  intercept place := return put c place

/-- Generate the unit of a template from its source. -/
def generateUnit (enter : Course.Enter) (name : Name) (source : String) :
    StateM Course (Except Failure Address) := do
  match ← Generation.generate c.generation (linker c sources enter)
      (Address.ofName name c.package) source with
  | .error failure => return .error failure
  | .ok unit =>
      modify fun course => { course with units := course.units.push unit }
      return .ok (Address.ofName name c.package)

/-- Generate a template unless that has been done or is being done. -/
def generateWith (enter : Course.Enter) : Course.Enter := fun name referencedFrom? => do
  match (← get).reserved.get? (slot c name) with
  | some holder =>
      if holder = name then return .ok (Address.ofName name c.package)
      else return .error (.collision (slot c name).1 holder name)
  | none =>
      modify fun course => { course with reserved := course.reserved.set (slot c name) name }
      match sources.get? name with
      | none => return .error (.notFound name referencedFrom?)
      | some source => generateUnit c sources enter name source

/-- Generate a template with at most `room` templates in the middle of one another
below it. -/
def generateInto : Nat → Course.Enter
  | 0 => generateWith c sources fun name referencedFrom? =>
      return .error (.notFound name referencedFrom?)
  | room + 1 => generateWith c sources (generateInto room)

/-- Generate templates one after the other. -/
def generateEach (room : Nat) : List Name → StateM Course (Except Failure Unit)
  | [] => return .ok ()
  | name :: rest => do
      match ← generateInto c sources room name none with
      | .error failure => return .error failure
      | .ok _ => generateEach room rest

/-- What a request comes to with room for that many templates in the middle of one
another. -/
def answer (room : Nat) (names : List Name) : Except Failure Batch :=
  match (generateEach c sources room names).run {} with
  | (.ok (), course) => .ok ⟨course.units.toList⟩
  | (.error failure, _) => .error failure

end

end Course

/-- What a request comes to by the configuration and the sources alone. -/
def outcome (c : Configuration) (sources : Table Name String) (names : List Name) :
    Except Failure Batch :=
  Course.answer c sources sources.size names

/-- What shows of a request in the course of it. -/
def Running.course (r : Running Memory) : Course :=
  ⟨r.request.units, r.request.reserved⟩

namespace Course

variable {c : Configuration} {sources other : Table Name String} {names stack : List Name}

/-! ## The course of a request -/

section

variable {enter : Course.Enter} {name : Name} {course : Course}

theorem resolve_run (call : CallRef) :
    ((linker c sources enter).resolve call).run course =
      match (enter call.name (some ⟨call.caller, call.line⟩)).run course with
      | (.error failure, course') => (.error failure, course')
      | (.ok _, course') => (.ok (calleeFor c sources call.name), course') := by
  unfold linker
  simp only [StateT.run_bind]
  generalize (enter call.name (some ⟨call.caller, call.line⟩)).run course = reached
  obtain ⟨answer, course'⟩ := reached
  cases answer <;> rfl

theorem generateUnit_run (source : String) :
    (generateUnit c sources enter name source).run course =
      match (Generation.generate c.generation (linker c sources enter)
        (Address.ofName name c.package) source).run course with
      | (.error failure, course') => (.error failure, course')
      | (.ok unit, course') => (.ok (Address.ofName name c.package),
          { course' with units := course'.units.push unit }) := by
  unfold generateUnit
  simp only [StateT.run_bind]
  generalize (Generation.generate c.generation (linker c sources enter)
    (Address.ofName name c.package) source).run course = reached
  obtain ⟨answer, course'⟩ := reached
  cases answer <;> rfl

theorem generateWith_taken {holder : Name} (referencedFrom? : Option Location)
    (h : course.reserved.get? (slot c name) = some holder) :
    (generateWith c sources enter name referencedFrom?).run course =
      (if holder = name then .ok (Address.ofName name c.package)
        else .error (.collision (slot c name).1 holder name), course) := by
  unfold generateWith
  simp only [StateT.run_bind, StateT.run_get, pure_bind, h]
  split <;> rfl

theorem generateWith_free (referencedFrom? : Option Location)
    (h : course.reserved.get? (slot c name) = none) :
    (generateWith c sources enter name referencedFrom?).run course =
      match sources.get? name with
      | some source => (generateUnit c sources enter name source).run
          { course with reserved := course.reserved.set (slot c name) name }
      | none => (.error (.notFound name referencedFrom?),
          { course with reserved := course.reserved.set (slot c name) name }) := by
  unfold generateWith
  simp only [StateT.run_bind, StateT.run_get, pure_bind, h, StateT.run_modify]
  cases sources.get? name <;> rfl

theorem generateEach_cons (room : Nat) (rest : List Name) :
    (generateEach c sources room (name :: rest)).run course =
      match (generateInto c sources room name none).run course with
      | (.error failure, course') => (.error failure, course')
      | (.ok _, course') => (generateEach c sources room rest).run course' := by
  rw [generateEach]
  simp only [StateT.run_bind]
  generalize (generateInto c sources room name none).run course = reached
  obtain ⟨answer, course'⟩ := reached
  cases answer <;> rfl

end

/-! ## Sessions answer alike -/

/-- From a state of a descent with that stack, `plain` does on the course of the
request what `enter` does on the request. -/
def Retraces (c : Configuration) (sources : Table Name String) (names : List Name)
    (enter : Session.Enter Memory) (plain : Course.Enter) (stack : List Name) : Prop :=
  ∀ r name referencedFrom?, Descent c sources names stack r → Within c sources names name →
    (∀ a ∈ stack, Reaches c sources a name) →
    (plain name referencedFrom?).run r.course =
      Prod.map id Running.course ((enter name referencedFrom?).run r)

section Retrace

variable {enter : Session.Enter Memory} {plain : Course.Enter} {name : Name}
  {r : Running Memory}

/-- The calls of a template are answered alike. The session has the parameters of
the callee from this request, since the callee has been taken up in it. -/
theorem shows_linker (henter : Descends c sources names enter (name :: stack))
    (hplain : Retraces c sources names enter plain (name :: stack))
    (hnew : ¬r.Took name) (hwithin : Within c sources names name)
    (hchain : ∀ a ∈ stack, Reaches c sources a name) {source : String}
    (hsource : sources.get? name = some source) :
    Generation.Shows (Session.linker enter) (linker c sources plain) Running.course
      (Address.ofName name c.package).template (Generation.callees c.generation name source)
      (fun r' => ∃ called, Calling c sources names stack name r called r') := by
  have hfollows := follows_linker henter hnew hwithin hchain hsource
  constructor
  · rintro r' call ⟨called, h⟩ hcaller hcall
    have hresolved := hfollows.resolve called r' call h hcaller hcall
    obtain rfl : call.caller = name := hcaller
    obtain ⟨hrefer, hcallee, hleads⟩ := h.leads hwithin hchain ⟨source, hsource, hcall⟩
    have hsame := hplain _ call.name (some ⟨call.caller, call.line⟩) hrefer hcallee hleads
    rw [show (r'.refer call.caller call.name).course = r'.course from rfl] at hsame
    rw [resolveCall_run] at hresolved ⊢
    rw [resolve_run, hsame]
    generalize (enter call.name (some ⟨call.caller, call.line⟩)).run
      (r'.refer call.caller call.name) = reached at hresolved ⊢
    obtain ⟨answer, r''⟩ := reached
    cases answer with
    | error failure =>
        refine ⟨rfl, ?_⟩
        intro hok
        cases hok
    | ok address =>
        rcases hresolved with ⟨-, failure, hfailure⟩ | ⟨hanswer, hcalling⟩
        · cases hfailure
        · simp only at hanswer hcalling ⊢
          rw [hanswer]
          exact ⟨rfl, fun _ => ⟨_, hcalling⟩⟩
  · rintro r' place ⟨called, h⟩
    obtain ⟨-, hcalling⟩ := hfollows.intercept called r' place h
    refine ⟨?_, called, hcalling⟩
    rw [intercept_run, h.descent.configuration]
    show (put c place, r'.course) = _
    simp only [Prod.map]
    split <;> rfl

/-- A template is generated alike if the templates below it are. -/
theorem retraces_generateWith
    (henter : ∀ name, (sources.get? name).isSome = true →
      Descends c sources names enter (name :: stack))
    (hplain : ∀ name, (sources.get? name).isSome = true →
      Retraces c sources names enter plain (name :: stack)) :
    Retraces c sources names (Session.generateWith enter) (generateWith c sources plain) stack := by
  intro r name referencedFrom? h hwithin hchain
  have htaken : (r.takeUp name).course =
      { r.course with reserved := r.course.reserved.set (slot c name) name } := by
    rw [← h.configuration]
    rfl
  cases hslot : r.request.reserved.get? (slot r.session.configuration name) with
  | some holder =>
      rw [Session.generateWith_taken enter name referencedFrom? r hslot]
      rw [h.configuration] at hslot ⊢
      rw [generateWith_taken referencedFrom? hslot]
      rfl
  | none =>
      rw [Session.generateWith_free enter name referencedFrom? r hslot, h.library, h.configuration]
      have hfree : r.course.reserved.get? (slot c name) = none := by
        rw [← h.configuration]
        exact hslot
      rw [generateWith_free referencedFrom? hfree, ← htaken]
      cases hsource : sources.get? name with
      | none => rfl
      | some source =>
          have hpresent : (sources.get? name).isSome = true := by
            rw [hsource]
            rfl
          have hgenerated := Generation.generate_shows c.generation
            (shows_linker (henter name hpresent) (hplain name hpresent)
              (Running.not_took_of_free hslot) hwithin hchain hsource)
            (s := r.takeUp name) rfl ⟨[], .begin h hwithin hslot hsource⟩
          simp only
          rw [generateUnit_run, hgenerated, Session.generateUnit_run,
            Running.takeUp_configuration, h.configuration]
          generalize (Generation.generate c.generation (Session.linker enter)
            (Address.ofName name c.package) source).run (r.takeUp name) = reached
          obtain ⟨answer, r'⟩ := reached
          cases answer <;> rfl

/-- Nothing is in the middle of more templates than the library has. -/
theorem retraces_of_full (hsize : sources.size ≤ stack.length) :
    Retraces c sources names (Session.generateWith enter) (generateWith c sources plain) stack := by
  have hnone (name : Name) (r : Running Memory) : ¬Descent c sources names (name :: stack) r := by
    intro h
    have hle := h.length_stack_le
    rw [List.length_cons] at hle
    omega
  apply retraces_generateWith
  · intro name _ r _ _ h
    exact absurd h (hnone name r)
  · intro name _ r _ _ h
    exact absurd h (hnone name r)

/-- **Every template is generated alike**, if there is room on both sides for as many
templates as the library has. -/
theorem retraces_generateInto (c : Configuration) (sources : Table Name String)
    (names : List Name) {room room' : Nat} {stack : List Name}
    (hroom : sources.size ≤ room + stack.length) (hroom' : sources.size ≤ room' + stack.length) :
    Retraces c sources names (Session.generateInto room) (generateInto c sources room') stack := by
  induction room generalizing stack room' with
  | zero =>
      rw [Nat.zero_add] at hroom
      cases room' <;> exact retraces_of_full hroom
  | succ room ih =>
      cases room' with
      | zero =>
          rw [Nat.zero_add] at hroom'
          exact retraces_of_full hroom'
      | succ room' =>
          apply retraces_generateWith
          · intro name _
            apply descends_generateInto
            rw [List.length_cons]
            omega
          · intro name _
            apply ih
            · rw [List.length_cons]
              omega
            · rw [List.length_cons]
              omega

/-- **One template after the other is generated alike.** -/
theorem retraces_generateEach {room room' : Nat} (hroom : sources.size ≤ room)
    (hroom' : sources.size ≤ room') (rest : List Name) (h : Descent c sources names [] r)
    (hsub : rest ⊆ names) : (generateEach c sources room' rest).run r.course =
      Prod.map id Running.course ((Session.generateEach room rest).run r) := by
  induction rest generalizing r with
  | nil => rfl
  | cons name rest ih =>
      have hwithin : Within c sources names name := .listed (hsub List.mem_cons_self)
      have hsame : Retraces c sources names (Session.generateInto room)
          (generateInto c sources room') [] := retraces_generateInto c sources names hroom hroom'
      have hends : Descends c sources names (Session.generateInto room) [] :=
        descends_generateInto c sources names hroom
      specialize hsame r name none h hwithin (by simp)
      specialize hends r name none h hwithin (by simp)
      rw [generateEach_cons, hsame, Session.generateEach_cons]
      generalize (Session.generateInto room name none).run r = reached at hends
      obtain ⟨answer, r'⟩ := reached
      cases answer with
      | error failure => rfl
      | ok address =>
          rcases hends with ⟨-, failure, hfailure⟩ | ⟨-, hdescent, -⟩
          · cases hfailure
          · exact ih hdescent.noteDependencies fun n hn => hsub (List.mem_cons_of_mem _ hn)

end Retrace

/-- A session answers by the sources alone. -/
theorem generate_eq_answer (s : Session Memory) {room : Nat}
    (hroom : s.library.sources.size ≤ room) (names : List Name) :
    ((generate names).run s).1 = answer s.configuration s.library.sources room names := by
  have hsame := retraces_generateEach (Nat.le_refl _) hroom names (Descent.start (s := s) names)
    (List.Subset.refl names)
  have hrequested : (Session.generateEach s.library.sources.size names).run { session := s } =
      requested s names := rfl
  rw [hrequested] at hsame
  rw [generate_run]
  unfold answer
  rw [show (generateEach s.configuration s.library.sources room names).run {} =
    Prod.map id Running.course (requested s names) from hsame]
  generalize requested s names = reached
  obtain ⟨answer, r⟩ := reached
  cases answer <;> rfl

/-! ## What depends on the sources -/

theorem generateWith_congr (h : ∀ n, sources.get? n = other.get? n) :
    generateWith c sources = generateWith c other := by
  have hsources : sources.get? = other.get? := funext h
  have hcallees : calleeFor c sources = calleeFor c other := by
    funext n
    unfold calleeFor
    rw [declaredBy_congr (h n)]
  unfold generateWith generateUnit linker
  simp only [hsources, hcallees]

theorem answer_congr (h : ∀ n, sources.get? n = other.get? n) (room : Nat) (names : List Name) :
    answer c sources room names = answer c other room names := by
  have hinto (room : Nat) : generateInto c sources room = generateInto c other room := by
    induction room with
    | zero => rw [generateInto, generateInto, generateWith_congr h]
    | succ room ih => rw [generateInto, generateInto, generateWith_congr h, ih]
  have heach : generateEach c sources room names = generateEach c other room names := by
    induction names with
    | nil => rfl
    | cons name names ih => rw [generateEach, generateEach, hinto, ih]
  unfold answer
  rw [heach]

end Course

variable {s s' : Session Memory} {names names' : List Name}

/-- **What a session remembers does not show in its answers.** Two sessions with the
same configuration and the same sources answer every request alike, whatever became
of earlier ones: with the same units in the same order or with the same failure.
That is what the request comes to by the sources alone, where every call is bound
against the parameters that its callee declares now. -/
theorem generate_eq_outcome (hconfiguration : s'.configuration = s.configuration)
    (hsources : ∀ n, s'.library.sources.get? n = s.library.sources.get? n) (names : List Name) :
    ((generate names).run s').1 = ((generate names).run s).1 ∧
      ((generate names).run s).1 = outcome s.configuration s.library.sources names := by
  refine ⟨?_, Course.generate_eq_answer s (Nat.le_refl _) names⟩
  -- The two tables may differ in size, so there has to be room for the larger one.
  calc ((generate names).run s').1
      = Course.answer s'.configuration s'.library.sources
          (max s.library.sources.size s'.library.sources.size) names :=
        Course.generate_eq_answer s' (Nat.le_max_right _ _) names
    _ = Course.answer s.configuration s.library.sources
          (max s.library.sources.size s'.library.sources.size) names := by
        rw [hconfiguration, Course.answer_congr hsources]
    _ = ((generate names).run s).1 :=
        (Course.generate_eq_answer s (Nat.le_max_left _ _) names).symm

/-- A page is requested, and then the tag it calls, which calls itself, is edited to
declare other parameters. -/
theorem generate_eq_outcome_redeclared :
    let memory : Memory := (({} : Memory).insert ⟨"page.stn"⟩ "@tag.row(1)").insert
      ⟨"tag/row.stn"⟩ "@param a: i32\n@tag.row(a)"
    let edit : Operation := .insert ⟨"tag/row.stn"⟩ "@param b: i32\n@param a: i32 = 3\n@tag.row(b)"
    let s := (fresh {} memory).performAll [.generate [⟨"page.stn"⟩], edit]
    let s' := (fresh {} memory).performAll [edit]
    s'.configuration = s.configuration ∧
      (∀ n, s'.library.sources.get? n = s.library.sources.get? n) ∧
      s.params.get? ⟨"tag/row.stn"⟩ = some [{ name := "a", type := "i32" }] ∧
      s'.params.get? ⟨"tag/row.stn"⟩ = none ∧
      ((generate [⟨"page.stn"⟩]).run s).1.isOk = true ∧
      ((generate [⟨"page.stn"⟩]).run s').1 = ((generate [⟨"page.stn"⟩]).run s).1 ∧
      ((generate [⟨"page.stn"⟩]).run s).1 =
        outcome s.configuration s.library.sources [⟨"page.stn"⟩] := by
  intro memory edit s s'
  have hkept (ops : List Operation) : ((fresh {} memory).performAll ops).configuration = {} :=
    configuration_performAll (s := fresh {} memory) Table.distinct_empty ops
  have hconfiguration : s'.configuration = s.configuration := (hkept _).trans (hkept _).symm
  have hentries : s'.library.sources.entries = s.library.sources.entries := by decide +kernel
  have hsources (n : Name) : s'.library.sources.get? n = s.library.sources.get? n := by
    unfold Table.get?
    rw [hentries]
  obtain ⟨hsame, houtcome⟩ := generate_eq_outcome hconfiguration hsources [⟨"page.stn"⟩]
  exact ⟨hconfiguration, hsources, by decide +kernel, by decide +kernel, by decide +kernel, hsame,
    houtcome⟩

/-! ## The order of the names -/

section SameNames

variable {c : Configuration} {sources other : Table Name String}

/-- Sources that are the same have the same calls. -/
theorem calls_congr (h : ∀ n, other.get? n = sources.get? n) : Calls c other = Calls c sources := by
  funext a b
  exact propext (Calls.congr (h a))

theorem within_iff (hsources : ∀ n, other.get? n = sources.get? n)
    (hnames : ∀ n, n ∈ names' ↔ n ∈ names) (n : Name) :
    Within c other names' n ↔ Within c sources names n := by
  unfold Within
  rw [calls_congr hsources]
  simp only [hnames]

theorem servable_iff (hsources : ∀ n, other.get? n = sources.get? n)
    (hnames : ∀ n, n ∈ names' ↔ n ∈ names) :
    Servable c other names' ↔ Servable c sources names := by
  constructor
  · intro h
    exact (h.congr fun n _ => hsources n).mono fun n hn => (hnames n).mpr hn
  · intro h
    exact (h.congr fun n _ => (hsources n).symm).mono fun n hn => (hnames n).mp hn

/-- Batches for the same names have the same units, up to their order. -/
theorem Batched.perm (hsources : ∀ n, other.get? n = sources.get? n)
    (hnames : ∀ n, n ∈ names' ↔ n ∈ names) {units units' : List SourceUnit}
    (h : Batched c sources names units) (h' : Batched c other names' units') :
    units'.Perm units := by
  refine (List.perm_ext_iff_of_nodup (.of_map _ h'.nodup) (.of_map _ h.nodup)).mpr ?_
  intro u
  have hunit : unitOf c other u.template = unitOf c sources u.template :=
    unitOf_congr (hsources _) fun b _ => hsources b
  rw [h'.mem_iff, h.mem_iff, within_iff hsources hnames, hunit]

/-- What two sessions have noted for a template is the same, up to its order. -/
theorem Noted.perm (hsources : ∀ n, other.get? n = sources.get? n) {n : Name}
    (h : Noted c sources s n) (h' : Noted c other s' n) :
    ∃ d d', s.dependencies.get? n = some d ∧ s'.dependencies.get? n = some d' ∧
      d'.order.Perm d.order := by
  obtain ⟨d, hd, hreach⟩ := h
  obtain ⟨d', hd', hreach'⟩ := h'
  refine ⟨d, d', hd, hd', (List.perm_ext_iff_of_nodup d'.nodup d.nodup).mpr ?_⟩
  intro x
  rw [hreach, hreach']
  unfold Reaches
  rw [calls_congr hsources]

end SameNames

/-- **The order of the names of a request does not matter**, nor does naming one of
them twice. With the same configuration and sources, a request for the same names is
served just when the other is. Then both deliver the same units, up to their order,
and note the same dependencies for each name. -/
theorem generate_perm (hconfiguration : s'.configuration = s.configuration)
    (hsources : ∀ n, s'.library.sources.get? n = s.library.sources.get? n)
    (hnames : ∀ n, n ∈ names' ↔ n ∈ names) :
    ((∃ batch, ((generate names').run s').1 = .ok batch) ↔
        ∃ batch, ((generate names).run s).1 = .ok batch) ∧
      ∀ batch batch', ((generate names).run s).1 = .ok batch →
        ((generate names').run s').1 = .ok batch' →
        batch'.units.Perm batch.units ∧
          ∀ n ∈ names, ∃ d d', ((generate names).run s).2.dependencies.get? n = some d ∧
            ((generate names').run s').2.dependencies.get? n = some d' ∧
            d'.order.Perm d.order := by
  constructor
  · rw [generate_ok_iff, generate_ok_iff, hconfiguration]
    exact servable_iff hsources hnames
  · intro batch batch' hbatch hbatch'
    have hserved := served_of_ok hbatch
    obtain ⟨hbatched', hnoted', -⟩ := served_of_ok hbatch'
    rw [hconfiguration] at hbatched' hnoted'
    refine ⟨hserved.batched.perm hsources hnames hbatched', ?_⟩
    intro n hn
    exact (hserved.noted n hn).perm hsources (hnoted' n ((hnames n).mpr hn))

/-- Two tags that call each other: which of them is finished first depends on where
the request enters. -/
theorem generate_perm_cycle :
    let memory : Memory := ((({} : Memory).insert ⟨"tag/a.stn"⟩ "@tag.b()").insert
      ⟨"tag/b.stn"⟩ "@tag.a()").insert ⟨"page.stn"⟩ "@tag.a()"
    let s := fresh {} memory
    let names : List Name := [⟨"page.stn"⟩, ⟨"tag/b.stn"⟩]
    let names' : List Name := [⟨"tag/b.stn"⟩, ⟨"page.stn"⟩, ⟨"tag/b.stn"⟩]
    (∀ n, n ∈ names' ↔ n ∈ names) ∧
      ∃ batch batch', ((generate names).run s).1 = .ok batch ∧
        ((generate names').run s).1 = .ok batch' ∧
        batch.units.map SourceUnit.template = [⟨"tag/b.stn"⟩, ⟨"tag/a.stn"⟩, ⟨"page.stn"⟩] ∧
        batch'.units.map SourceUnit.template = [⟨"tag/a.stn"⟩, ⟨"tag/b.stn"⟩, ⟨"page.stn"⟩] ∧
        batch'.units.Perm batch.units ∧
        ∀ n ∈ names, ∃ d d', ((generate names).run s).2.dependencies.get? n = some d ∧
          ((generate names').run s).2.dependencies.get? n = some d' ∧ d'.order.Perm d.order := by
  intro memory s names names'
  have hnames (n : Name) : n ∈ names' ↔ n ∈ names := by
    simp only [names, names', List.mem_cons, List.not_mem_nil, or_false]
    grind
  obtain ⟨batch, hbatch, htemplates⟩ : ∃ batch, ((generate names).run s).1 = .ok batch ∧
      batch.units.map SourceUnit.template = [⟨"tag/b.stn"⟩, ⟨"tag/a.stn"⟩, ⟨"page.stn"⟩] :=
    exists_batch (by decide +kernel)
  obtain ⟨batch', hbatch', htemplates'⟩ : ∃ batch, ((generate names').run s).1 = .ok batch ∧
      batch.units.map SourceUnit.template = [⟨"tag/a.stn"⟩, ⟨"tag/b.stn"⟩, ⟨"page.stn"⟩] :=
    exists_batch (by decide +kernel)
  obtain ⟨hperm, hdependencies⟩ :=
    (generate_perm rfl (fun _ => rfl) hnames).2 batch batch' hbatch hbatch'
  exact ⟨hnames, batch, batch', hbatch, hbatch', htemplates, htemplates', hperm, hdependencies⟩

end Templating.Session
