import Templating.Proofs.Generation.Announcement

/-!
# When a unit is generated

A template fails with all that is wrong with it, if anything is: the problems found in
reading it and the parameters without a type, in the order in which they are met.
Otherwise it fails with its first call that cannot be made, and behind that call its
linker is not asked again. So whether there is a unit, and if not, why, can be told from
the template and from the answers of the linker.
-/

namespace Templating.Generation

open Scan (HasHeader OfContent Signal)
open Progress (instruction? interception? untyped)

variable {σ : Type} {setting : Setting} {linker : Linker σ}

/-! ## Calls and answers -/

/-- A call as a template makes it. -/
structure Call where
  ref : CallRef
  arguments : List Text.Slice

abbrev Answer : Type := Except Failure Callee

/-- Why the call fails with an answer, if it does: there is no callee, or the arguments
do not fit it. -/
def Call.failure? (call : Call) : Answer → Option Failure
  | .error failure => some failure
  | .ok callee =>
      match Binding.bind callee.params (call.arguments.map fun a => Argument.classify a.text) with
      | .error problem => some (.unbound ⟨call.ref.caller, call.ref.line⟩ call.ref.name problem)
      | .ok _ => none

/-- The call that an event of `caller` makes. -/
def callOf (caller : Name) (e : Event) : Option Call :=
  match e.body with
  | .call kind reference arguments =>
      some ⟨⟨caller, e.line, kind, caller.ofCall kind reference⟩, arguments⟩
  | _ => none

/-- The calls that a template makes, one after the other. -/
def calls (setting : Setting) (name : Name) (source : String) : List Call :=
  (Scan.events ⟨name.kind, setting.interest?⟩ source.toList).filterMap (callOf name)

theorem calleeOf_eq (caller : Name) (e : Event) :
    calleeOf caller e = (callOf caller e).map fun call => call.ref.name := by
  obtain ⟨line, depth, body⟩ := e
  cases body <;> rfl

/-- Behind a call there is only content. -/
theorem pairwise_content {es : List Event} (h : HasHeader es) (caller : Name) :
    es.Pairwise fun e x => (callOf caller e).isSome = true → OfContent x := by
  obtain ⟨header, x, content, rfl, hx, hheader, hcontent⟩ := h
  have hnone : ∀ e ∈ header, callOf caller e = none := by
    intro e he
    have hcallee := calleeOf_of_header (hheader e he) caller
    rwa [calleeOf_eq, Option.map_eq_none_iff] at hcallee
  rw [List.pairwise_append, List.pairwise_cons]
  refine ⟨?_, ⟨fun y hy _ => hcontent y hy, ?_⟩, ?_⟩
  · apply List.pairwise_of_forall_mem_list
    intro e he y _ hcall
    rw [hnone e he] at hcall
    cases hcall
  · exact List.pairwise_of_forall_mem_list fun _ _ y hy _ => hcontent y hy
  · intro e he y _ hcall
    rw [hnone e he] at hcall
    cases hcall

/-- The calls have been answered in turn, up to the first that failed, if any did. -/
inductive Asked : List Call → List Answer → Option Failure → Prop
  | all : Asked [] [] none
  | made {call : Call} {answer : Answer} {calls : List Call} {answers : List Answer}
      {failure? : Option Failure} (h : call.failure? answer = none)
      (rest : Asked calls answers failure?) : Asked (call :: calls) (answer :: answers) failure?
  | failed {call : Call} {answer : Answer} {failure : Failure} (calls : List Call)
      (h : call.failure? answer = some failure) :
      Asked (call :: calls) [answer] (some failure)

/-- No call failed just when all have been answered, and each can be made. -/
theorem Asked.failure?_eq_none_iff {calls : List Call} {answers : List Answer}
    {failure? : Option Failure} (h : Asked calls answers failure?) : failure? = none ↔
      List.Forall₂ (fun call answer => call.failure? answer = none) calls answers := by
  induction h with
  | all => simp
  | made h rest ih => simp [h, ih]
  | failed calls h => simp [h]

/-! ## Keeping a record -/

/-- Go on with the record as it is. -/
def unrecorded {α ρ : Type} (answer : StateM σ α) : StateM (σ × ρ) α := do
  let (s, record) ← get
  let (a, s) := answer.run s
  set (s, record)
  return a

/-- The linker, keeping a record of the calls that it is asked for and of its answers. -/
def recording (linker : Linker σ) : Linker (σ × List (CallRef × Answer)) where
  resolve call := do
    let (s, record) ← get
    let (answer, s) := (linker.resolve call).run s
    set (s, record ++ [(call, answer)])
    return answer
  declare template params := unrecorded (linker.declare template params)
  intercept place := unrecorded (linker.intercept place)

/-- Keeping a record does not show. -/
theorem recording_shows (linker : Linker σ) (caller : Name) (callable : List Name) :
    Shows (recording linker) linker Prod.fst caller callable fun _ => True where
  resolve _ _ _ _ _ := ⟨rfl, fun _ => trivial⟩
  intercept _ _ _ := ⟨rfl, trivial⟩

/-! ## What is wrong with a template -/

/-- What a signal says against the template: a problem, or a parameter without a type. -/
def findingOf (template : Name) : Signal → Option Diagnostic
  | .problem problem => some (problem.diagnostic.inTemplate template)
  | .event e =>
      match e.body with
      | .param _ param =>
          if (Text.trim param.type.toList).isEmpty then
            some ((untyped e.line param).inTemplate template)
          else none
      | _ => none

/-- Everything that is wrong with a template, in the order in which it is met. -/
def findings (setting : Setting) (name : Name) (source : String) : List Diagnostic :=
  (Scan.signals ⟨name.kind, setting.interest?⟩ source.toList).filterMap (findingOf name)

/-- A signal says nothing against the template unless it is a problem or declares a
parameter without a type. -/
theorem findingOf_eq_none_iff (template : Name) (x : Signal) : findingOf template x = none ↔
    x.problem? = none ∧
      ∀ e ∈ x.event?, ∀ param ∈ paramsOf e, (Text.trim param.type.toList).isEmpty = false := by
  cases x with
  | problem problem => simp [findingOf, Signal.problem?]
  | event e =>
      obtain ⟨line, depth, body⟩ := e
      cases body <;> simp [findingOf, Signal.problem?, Signal.event?, paramsOf]

/-- Nothing is wrong with a template just when no problem was found in reading it and
all its parameters have types. -/
theorem findings_eq_nil_iff (setting : Setting) (name : Name) (source : String) :
    findings setting name source = [] ↔
      Scan.problems ⟨name.kind, setting.interest?⟩ source.toList = [] ∧
      ∀ param ∈ declared setting name source,
        (Text.trim param.type.toList).isEmpty = false := by
  unfold findings Scan.problems declared Scan.events
  simp only [List.filterMap_eq_nil_iff, findingOf_eq_none_iff, List.mem_flatMap,
    List.mem_filterMap]
  constructor
  · intro h
    refine ⟨fun x hx => (h x hx).1, ?_⟩
    rintro param ⟨e, ⟨x, hx, hevent⟩, hparam⟩
    exact (h x hx).2 e hevent param hparam
  · rintro ⟨hproblems, htyped⟩ x hx
    refine ⟨hproblems x hx, ?_⟩
    intro e he param hparam
    exact htyped param ⟨e, ⟨x, hx, he⟩, hparam⟩

/-- Whatever is wrong with a template is attached to it. -/
theorem findings_template {name : Name} {source : String} {d : Diagnostic}
    (hd : d ∈ findings setting name source) : d.template? = some name := by
  obtain ⟨x, -, hx⟩ := List.mem_filterMap.mp hd
  cases x with
  | problem problem =>
      obtain rfl := Option.some.inj hx
      rfl
  | event e =>
      obtain ⟨line, depth, body⟩ := e
      cases body with
      | param declaration param =>
          simp only [findingOf, Option.ite_none_right_eq_some] at hx
          obtain rfl := Option.some.inj hx.2
          rfl
      | _ => cases hx

theorem findingOf_content (template : Name) {e : Event} (he : OfContent e) :
    findingOf template (.event e) = none := by
  obtain ⟨line, depth, body⟩ := e
  cases body <;> first | rfl | exact absurd rfl (he.2.1 _ _)

namespace Progress

variable {p : Progress}

/-! ## Taking an event -/

theorem addText_failure? (p : Progress) (setting : Setting) (level : Nat) (text : String) :
    (p.addText setting level text).failure? = p.failure? := by
  unfold addText
  split
  · rfl
  · rw [addLiterals_eq]

theorem addText_diagnostics (p : Progress) (setting : Setting) (level : Nat) (text : String) :
    (p.addText setting level text).diagnostics = p.diagnostics := by
  unfold addText
  split
  · rfl
  · rw [addLiterals_eq]

theorem addCall_diagnostics (p : Progress) (level line : Nat) (kind : CallKind) (name : Name)
    (arguments : List Text.Slice) (answer : Answer) :
    (p.addCall level line kind name arguments answer).diagnostics = p.diagnostics := by
  cases answer with
  | error failure => rfl
  | ok callee =>
      unfold addCall
      simp only
      split <;> rfl

/-- A unit that has not failed fails with the call. -/
theorem addCall_failure? (hp : p.failure? = none) (level line : Nat) (kind : CallKind)
    (name : Name) (arguments : List Text.Slice) (answer : Answer) :
    (p.addCall level line kind name arguments answer).failure? =
      Call.failure? ⟨⟨p.address.template, line, kind, name⟩, arguments⟩ answer := by
  cases answer with
  | error failure => rfl
  | ok callee =>
      unfold addCall Call.failure?
      simp only
      cases Binding.bind callee.params (arguments.map fun a => Argument.classify a.text) with
      | error problem => rfl
      | ok bound => exact hp

variable (setting linker) in
theorem takeEvent_param (hp : p.failure? = none) (line depth : Nat) (declaration : Text.Slice)
    (param : Param) (s : σ) :
    ((p.takeEvent setting linker ⟨line, depth, .param declaration param⟩).run s).1 =
      p.addParam line param := by
  simp [takeEvent, hp]

variable (setting linker) in
/-- Taking an event adds what it says against the template. -/
theorem takeEvent_diagnostics (hp : p.failure? = none) (e : Event) (s : σ) :
    ((p.takeEvent setting linker e).run s).1.diagnostics.toList =
      p.diagnostics.toList ++ (findingOf p.address.template (.event e)).toList := by
  obtain ⟨line, depth, body⟩ := e
  cases body with
  | param declaration param =>
      rw [takeEvent_param setting linker hp, addParam, findingOf]
      simp only
      split
      · simp [addDiagnostic]
      · simp
  | _ =>
      simp [takeEvent, hp, interception?, instruction?, addText_diagnostics, addCall_diagnostics,
        add, findingOf, -bind_pure_comp]

variable (setting linker) in
/-- Only a call can fail. -/
theorem takeEvent_failure? (hp : p.failure? = none) {e : Event}
    (he : callOf p.address.template e = none) (s : σ) :
    ((p.takeEvent setting linker e).run s).1.failure? = none := by
  obtain ⟨line, depth, body⟩ := e
  cases body with
  | call kind reference arguments => cases he
  | param declaration param =>
      rw [takeEvent_param setting linker hp, addParam]
      split <;> exact hp
  | _ =>
      simp [takeEvent, hp, interception?, instruction?, addText_failure?, add, -bind_pure_comp]

variable (setting linker) in
/-- A linker that keeps a record is asked for the callee of a call, and for no other. -/
theorem takeEvent_recorded (hp : p.failure? = none) (e : Event) (s : σ)
    (record : List (CallRef × Answer)) :
    ∃ (q : Progress) (t : σ),
      (∃ call answer, callOf p.address.template e = some call ∧
        (p.takeEvent setting (recording linker) e).run (s, record) =
          (q, (t, record ++ [(call.ref, answer)])) ∧
        q.failure? = call.failure? answer) ∨
      (callOf p.address.template e = none ∧
        (p.takeEvent setting (recording linker) e).run (s, record) = (q, (t, record)) ∧
        q.failure? = none) := by
  cases hcall : callOf p.address.template e with
  | some call =>
      obtain ⟨line, depth, body⟩ := e
      cases body with
      | call kind reference arguments =>
          obtain rfl := Option.some.inj hcall
          let ref : CallRef :=
            ⟨p.address.template, line, kind, p.address.template.ofCall kind reference⟩
          let answered := (linker.resolve ref).run s
          refine ⟨p.addCall (depth + Dialect.bodyLevel) line kind ref.name arguments answered.1,
            answered.2, .inl ⟨⟨ref, arguments⟩, answered.1, rfl, ?_, ?_⟩⟩
          · simp [takeEvent, hp, -bind_pure_comp]
            rfl
          · exact addCall_failure? hp _ line kind ref.name arguments answered.1
      | _ => cases hcall
  | none =>
      have hnone := takeEvent_failure? setting (recording linker) hp hcall (s, record)
      have hrecord : ((p.takeEvent setting (recording linker) e).run (s, record)).2.2 = record := by
        obtain ⟨line, depth, body⟩ := e
        cases body with
        | call kind reference arguments => cases hcall
        | headerEnd | elementOpened _ | elementClosed _ | attributeBegun _ _ =>
            simp [takeEvent, hp, interception?, -bind_pure_comp]
            rfl
        | _ => simp [takeEvent, hp, interception?, instruction?]
      refine ⟨_, _, .inr ⟨rfl, Prod.ext rfl (Prod.ext rfl hrecord), hnone⟩⟩

/-! ## Coming to an end -/

theorem finish_ok_iff (p : Progress) :
    (∃ unit, p.finish = .ok unit) ↔ p.diagnostics.toList = [] ∧ p.failure? = none := by
  constructor
  · rintro ⟨unit, hunit⟩
    obtain ⟨hdiagnostics, hfailure, -⟩ := finish_eq_ok hunit
    exact ⟨by rw [hdiagnostics], hfailure⟩
  · rintro ⟨hdiagnostics, hfailure⟩
    unfold finish
    rw [Array.toList_eq_nil_iff.mp hdiagnostics, hfailure]
    exact ⟨_, rfl⟩

/-- What is wrong with a template is told before its failed call. -/
theorem finish_unsound (h : p.diagnostics.toList ≠ []) :
    p.finish = .error (.unsound p.address.template p.diagnostics.toList) := by
  unfold finish
  rw [if_neg]
  intro hempty
  exact h (Array.toList_eq_nil_iff.mpr (Array.isEmpty_iff.mp hempty))

theorem finish_error {failure : Failure} (h : p.diagnostics.toList = [])
    (hfailure : p.failure? = some failure) : p.finish = .error failure := by
  unfold finish
  rw [Array.toList_eq_nil_iff.mp h, hfailure]
  rfl

end Progress

/-! ## A whole run -/

variable (setting linker) in
theorem run_address (signals : List Signal) (p : Progress) (s : σ) :
    ((signals.foldlM (Progress.take setting linker) p).run s).1.address = p.address := by
  induction signals generalizing p s with
  | nil => rfl
  | cons x signals ih =>
      rw [run_cons, ih]
      cases x with
      | problem problem => rfl
      | event e => exact p.takeEvent_address setting linker e s

variable (setting linker) in
/-- Behind a call that failed, the linker is not asked, and the failure stays. -/
theorem run_unasked (signals : List Signal) {p : Progress} (hp : p.failure?.isSome = true)
    (s : σ) :
    ((signals.foldlM (Progress.take setting linker) p).run s).1.failure? = p.failure? ∧
      ((signals.foldlM (Progress.take setting linker) p).run s).2 = s := by
  induction signals generalizing p with
  | nil => exact ⟨rfl, rfl⟩
  | cons x signals ih =>
      cases x with
      | problem problem => exact ih (p := p.addDiagnostic problem.diagnostic) hp
      | event e =>
          rw [run_cons]
          simp only [Progress.take]
          rw [Progress.takeEvent_stopped hp]
          exact ih hp

variable (setting linker) in
/-- **The calls of a run are asked for in turn**, up to the first that fails. -/
theorem run_asked {caller : Name} (signals : List Signal) {p : Progress} (hp : p.failure? = none)
    (hcaller : p.address.template = caller) (s : σ) (record : List (CallRef × Answer)) :
    ∃ answers,
      Asked ((signals.filterMap Signal.event?).filterMap (callOf caller)) answers
        ((signals.foldlM (Progress.take setting (recording linker)) p).run
          (s, record)).1.failure? ∧
      ((signals.foldlM (Progress.take setting (recording linker)) p).run (s, record)).2.2 =
        record ++ (((signals.filterMap Signal.event?).filterMap (callOf caller)).map Call.ref).zip
          answers := by
  induction signals generalizing p s record with
  | nil =>
      refine ⟨[], ?_, ?_⟩
      · rw [List.foldlM_nil]
        show Asked [] [] p.failure?
        rw [hp]
        exact .all
      · simp
  | cons x signals ih =>
      cases x with
      | problem problem => exact ih (p := p.addDiagnostic problem.diagnostic) hp hcaller s record
      | event e =>
          have hevents : (Signal.event e :: signals).filterMap Signal.event? =
              e :: signals.filterMap Signal.event? := rfl
          have haddress := p.takeEvent_address setting (recording linker) e (s, record)
          obtain ⟨q, t, ⟨call, answer, hcall, htake, hfailure⟩ | ⟨hcall, htake, hnone⟩⟩ :=
            Progress.takeEvent_recorded setting linker hp e s record
          all_goals
            rw [hcaller] at hcall
            rw [htake] at haddress
            rw [hevents, run_cons]
            simp only [Progress.take]
            rw [htake]
          · rw [List.filterMap_cons_some hcall]
            cases hq : q.failure? with
            | none =>
                obtain ⟨answers, hasked, hlast⟩ := ih hq (by rw [haddress, hcaller]) t
                  (record ++ [(call.ref, answer)])
                refine ⟨answer :: answers, .made (by rw [← hfailure, hq]) hasked, ?_⟩
                rw [hlast, List.append_assoc]
                rfl
            | some failure =>
                obtain ⟨hstays, hstate⟩ := run_unasked setting (recording linker) signals
                  (p := q) (by rw [hq]; rfl) (t, record ++ [(call.ref, answer)])
                refine ⟨[answer], ?_, ?_⟩
                · rw [hstays, hq]
                  exact .failed _ (by rw [← hfailure, hq])
                · rw [hstate]
                  simp
          · rw [List.filterMap_cons_none hcall]
            exact ih hnone (by rw [haddress, hcaller]) t record

variable (setting linker) in
/-- **A run collects what is wrong with the template**, also behind a call that failed:
there are problems, but no more parameters. -/
theorem run_findings {caller : Name} (signals : List Signal) {p : Progress}
    (hcaller : p.address.template = caller)
    (hcontent : (signals.filterMap Signal.event?).Pairwise
      fun e x => (callOf caller e).isSome = true → OfContent x)
    (hfailed : p.failure?.isSome = true → ∀ e ∈ signals.filterMap Signal.event?, OfContent e)
    (s : σ) :
    ((signals.foldlM (Progress.take setting linker) p).run s).1.diagnostics.toList =
      p.diagnostics.toList ++ signals.filterMap (findingOf caller) := by
  induction signals generalizing p s with
  | nil => simp
  | cons x signals ih =>
      rw [run_cons]
      cases x with
      | problem problem =>
          have hfinding : findingOf caller (.problem problem) =
              some (problem.diagnostic.inTemplate caller) := rfl
          rw [List.filterMap_cons_some hfinding, List.append_cons]
          refine (ih (p := p.addDiagnostic problem.diagnostic) hcaller hcontent hfailed s).trans ?_
          rw [Progress.addDiagnostic, Array.toList_push, hcaller]
      | event e =>
          have hevents : (Signal.event e :: signals).filterMap Signal.event? =
              e :: signals.filterMap Signal.event? := rfl
          rw [hevents] at hcontent hfailed
          rw [List.pairwise_cons] at hcontent
          rw [List.filterMap_eq_flatMap_toList, List.flatMap_cons,
            ← List.filterMap_eq_flatMap_toList]
          simp only [Progress.take]
          by_cases hp : p.failure? = none
          · rw [ih (by rw [p.takeEvent_address setting linker, hcaller]) hcontent.2 ?_,
              Progress.takeEvent_diagnostics setting linker hp, hcaller, List.append_assoc]
            -- A failure now is that of a call.
            intro hfailure y hy
            apply hcontent.1 y hy
            by_contra hcall
            rw [Progress.takeEvent_failure? setting linker hp (by simpa [hcaller] using hcall)]
              at hfailure
            cases hfailure
          · have hstopped := Option.isSome_iff_ne_none.mpr hp
            obtain ⟨he, hrest⟩ := List.forall_mem_cons.mp (hfailed hstopped)
            rw [Progress.takeEvent_stopped hstopped, findingOf_content caller he]
            exact ih hcaller hcontent.2 (fun _ => hrest) s

/-- What the signals of a template come to with a linker that keeps a record. -/
theorem progress_recorded (setting : Setting) (linker : Linker σ) (address : Address)
    (source : String) (s : σ) :
    ∃ (done : Progress) (reached : σ) (answers : List Answer),
      (progress setting (recording linker) address address.kind source).run (s, []) =
        (done, (reached, ((calls setting address.template source).map Call.ref).zip answers)) ∧
      Asked (calls setting address.template source) answers done.failure? ∧
      done.diagnostics.toList = findings setting address.template source ∧
      done.address = address := by
  let signals := Scan.signals ⟨address.kind, setting.interest?⟩ source.toList
  let start : Progress := { address, kind := address.kind }
  have hrun : (progress setting (recording linker) address address.kind source).run (s, []) =
      (signals.foldlM (Progress.take setting (recording linker)) start).run (s, []) := rfl
  obtain ⟨answers, hasked, hrecord⟩ :=
    run_asked setting linker signals (p := start) rfl rfl s []
  have hfindings := run_findings setting (recording linker) signals (p := start) rfl
    (pairwise_content (Scan.events_hasHeader _ _) address.template)
    (fun hfailed => nomatch hfailed) (s, [])
  have haddress := run_address setting (recording linker) signals start (s, [])
  have hcalls : (signals.filterMap Signal.event?).filterMap (callOf address.template) =
      calls setting address.template source := rfl
  rw [← hrun] at hasked hrecord hfindings haddress
  rw [hcalls] at hasked hrecord
  generalize (progress setting (recording linker) address address.kind source).run (s, []) = ran
    at hasked hrecord hfindings haddress ⊢
  obtain ⟨done, reached, record⟩ := ran
  refine ⟨done, reached, answers, ?_, hasked, ?_, haddress⟩
  · rw [show record = _ from hrecord, List.nil_append]
  · rw [show done.diagnostics.toList = _ from hfindings]
    rfl

/-- **The verdict on a template.** There is a unit just when no problem was found in
reading the template, all its parameters have types, and the linker answers each of its
calls with a callee that the arguments fit. Otherwise the template fails with all that is
wrong with it, or, if that is nothing, with its first call that fails. The linker is
asked for the calls in turn, up to that one. -/
theorem generate_verdict (setting : Setting) (linker : Linker σ) (address : Address)
    (source : String) (s : σ) :
    ∃ (result : Except Failure SourceUnit) (reached : σ) (answers : List Answer)
      (failure? : Option Failure),
      (generate setting linker address source).run s = (result, reached) ∧
      (generate setting (recording linker) address source).run (s, []) =
        (result, (reached, ((calls setting address.template source).map Call.ref).zip answers)) ∧
      Asked (calls setting address.template source) answers failure? ∧
      ((∃ unit, result = .ok unit) ↔
        Scan.problems ⟨address.kind, setting.interest?⟩ source.toList = [] ∧
        (∀ param ∈ declared setting address.template source,
          (Text.trim param.type.toList).isEmpty = false) ∧
        List.Forall₂ (fun call answer => call.failure? answer = none)
          (calls setting address.template source) answers) ∧
      (findings setting address.template source ≠ [] →
        result = .error (.unsound address.template (findings setting address.template source))) ∧
      (findings setting address.template source = [] → ∀ failure, failure? = some failure →
        result = .error failure) ∧
      ∀ d ∈ findings setting address.template source, d.template? = some address.template := by
  have hshown : (generate setting linker address source).run s = Prod.map id Prod.fst
      ((generate setting (recording linker) address source).run (s, [])) :=
    generate_shows setting (s := (s, [])) (recording_shows linker address.template _) rfl trivial
  obtain ⟨done, reached, answers, hrun, hasked, hfindings, haddress⟩ :=
    progress_recorded setting linker address source s
  have hgenerate : (generate setting (recording linker) address source).run (s, []) =
      (done.finish,
        (reached, ((calls setting address.template source).map Call.ref).zip answers)) :=
    Prod.ext (by rw [generate_fst, hrun]) (by rw [generate_snd, hrun])
  rw [hgenerate] at hshown ⊢
  refine ⟨done.finish, reached, answers, done.failure?, hshown, rfl, hasked, ?_, ?_, ?_, ?_⟩
  · rw [done.finish_ok_iff, hfindings, findings_eq_nil_iff, hasked.failure?_eq_none_iff, and_assoc]
    rfl
  · intro hunsound
    rw [← hfindings] at hunsound ⊢
    rw [Progress.finish_unsound hunsound, haddress]
  · intro hsound failure hfailure
    exact Progress.finish_error (hfindings.trans hsound) hfailure
  · exact fun d hd => findings_template hd

/-- The block that was never begun is found whatever becomes of the call before it. -/
example : (findings {} ⟨"page.stn"⟩ "@param a\n@tag.card()\n@endif").map
    (fun d => (d.code, d.line)) = [(.untypedParam, 1), (.unbalanced, 3)] := by decide +kernel

end Templating.Generation
