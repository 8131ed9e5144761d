import Templating.Proofs.Generation.Written
import Templating.Proofs.Scan.Header

/-!
# Calls of a template

What a template calls and which parameters it declares can be read off its
events, without generating anything. Generation asks its linker for nothing
else: it announces the parameters once, before the first call, and then asks for
the callees in the order of the calls. So two linkers that give the same answers
generate the same unit, whatever states they are in; `Follows` compares a linker
with one that has all its answers beforehand.
-/

namespace Templating.Generation

open Scan (OfHeader OfContent Signal)
open Progress (instruction? interception?)

variable {σ : Type} {setting : Setting} {linker : Linker σ}

/-! ## What a template calls and declares -/

/-- The template that an event of `caller` calls. -/
def calleeOf (caller : Name) (e : Event) : Option Name :=
  match e.body with
  | .call kind reference _ => some (caller.ofCall kind reference)
  | _ => none

/-- The templates that a template calls, in the order of the calls. -/
def callees (setting : Setting) (name : Name) (source : String) : List Name :=
  (Scan.events ⟨name.kind, setting.interest?⟩ source.toList).filterMap (calleeOf name)

/-- The parameters that a template declares. -/
def declared (setting : Setting) (name : Name) (source : String) : List Param :=
  (Scan.events ⟨name.kind, setting.interest?⟩ source.toList).flatMap paramsOf

theorem calleeOf_of_header {e : Event} (he : OfHeader e) (caller : Name) :
    calleeOf caller e = none := by
  obtain ⟨line, depth, body⟩ := e
  cases body <;> first | rfl | exact absurd he.1 (by simp [Event.Body.isHeader])

theorem paramsOf_of_content {e : Event} (he : OfContent e) : paramsOf e = [] := by
  obtain ⟨line, depth, body⟩ := e
  cases body <;> first | rfl | exact absurd rfl (he.2.1 _ _)

/-! ## Linkers that know their answers -/

/-- Answers every call, and puts text into the markup, as it is told. -/
def fixed (answer : Name → Callee) (put : Interception → String) : Linker Unit where
  resolve call := return .ok (answer call.name)
  declare _ _ := return ()
  intercept place := return put place

/-- In the template `caller`, the linker answers calls of `callable` templates
with `answer` and puts text as `put` does. After `called` has been asked for its
state is in the relation `R` with that. It may fail to answer, but only in a
`Faulty` setting. -/
structure Follows (linker : Linker σ) (caller : Name) (callable : List Name)
    (answer : Name → Callee) (put : Interception → String) (Faulty : Prop)
    (R : List Name → σ → Prop) : Prop where
  resolve : ∀ called s call, R called s → call.caller = caller → call.name ∈ callable →
    (Faulty ∧ ∃ failure, ((linker.resolve call).run s).1 = .error failure) ∨
      (((linker.resolve call).run s).1 = .ok (answer call.name) ∧
        R (called ++ [call.name]) ((linker.resolve call).run s).2)
  intercept : ∀ called s place, R called s →
    ((linker.intercept place).run s).1 = put place ∧
      R called ((linker.intercept place).run s).2

namespace Progress

/-! ## The place of the unit -/

theorem addText_address (p : Progress) (setting : Setting) (level : Nat) (text : String) :
    (p.addText setting level text).address = p.address := by
  unfold addText
  split
  · rfl
  · rw [addLiterals_eq]

theorem addCall_address (p : Progress) (level line : Nat) (kind : CallKind) (name : Name)
    (arguments : List Text.Slice) (answer : Except Failure Callee) :
    (p.addCall level line kind name arguments answer).address = p.address := by
  cases answer with
  | error failure => rfl
  | ok callee =>
      unfold addCall
      simp only
      split <;> rfl

theorem addParam_address (p : Progress) (line : Nat) (param : Param) :
    (p.addParam line param).address = p.address := by
  unfold addParam
  simp only
  split <;> rfl

variable (setting linker) in
/-- Whatever happens, the unit keeps its place. -/
theorem takeEvent_address (p : Progress) (e : Event) (s : σ) :
    ((p.takeEvent setting linker e).run s).1.address = p.address := by
  by_cases hp : p.failure?.isSome = true
  · rw [takeEvent_failed hp]
  · have hp' : p.failure? = none := by simpa using hp
    obtain ⟨line, depth, body⟩ := e
    cases body <;>
      simp [takeEvent, hp', interception?, instruction?, addText_address, addCall_address,
        addParam_address, add, -bind_pure_comp]

/-! ## The header -/

variable (setting) in
/-- An event of the header asks the linker for nothing. -/
theorem takeEvent_header {p : Progress} (hp : p.failure? = none) {e : Event} (he : OfHeader e) :
    ∃ q : Progress, q.failure? = none ∧ q.address = p.address ∧
      q.params.toList = p.params.toList ++ paramsOf e ∧
      ∀ {σ : Type} (linker : Linker σ) (s : σ), (p.takeEvent setting linker e).run s = (q, s) := by
  obtain ⟨line, depth, body⟩ := e
  cases body with
  | imported path =>
      refine ⟨{ p with imports := p.imports.push (Text.trimmed path.text) }, hp, rfl, ?_, ?_⟩
      · simp [paramsOf]
      · intro σ linker s
        simp [takeEvent, hp]
        rfl
  | param declaration param =>
      refine ⟨p.addParam line param, ?_, p.addParam_address line param, ?_, ?_⟩
      · unfold addParam
        simp only
        split <;> exact hp
      · unfold addParam
        simp only
        split <;> simp [addDiagnostic, paramsOf]
      · intro σ linker s
        simp [takeEvent, hp]
        rfl
  | lineEnd =>
      refine ⟨{ p with templateLine := line + 1 }, hp, rfl, ?_, ?_⟩
      · simp [paramsOf]
      · intro σ linker s
        simp [takeEvent, hp]
        rfl
  | headerEnd => exact absurd rfl he.2
  | _ => exact absurd he.1 (by simp [Event.Body.isHeader])

variable (setting) in
/-- A run over the header asks the linker for nothing. -/
theorem run_header (signals : List Signal)
    (hsignals : ∀ e ∈ signals.filterMap Signal.event?, OfHeader e) {p : Progress}
    (hp : p.failure? = none) :
    ∃ q : Progress, q.failure? = none ∧ q.address = p.address ∧
      q.params.toList =
        p.params.toList ++ (signals.filterMap Signal.event?).flatMap paramsOf ∧
      ∀ {σ : Type} (linker : Linker σ) (s : σ),
        (signals.foldlM (Progress.take setting linker) p).run s = (q, s) := by
  induction signals generalizing p with
  | nil =>
      refine ⟨p, hp, rfl, ?_, ?_⟩
      · simp
      · intro σ linker s
        rfl
  | cons x signals ih =>
      cases x with
      | problem problem =>
          obtain ⟨q, hq, haddress, hparams, hrun⟩ :=
            ih hsignals (p := p.addDiagnostic problem.diagnostic) hp
          exact ⟨q, hq, haddress, hparams, hrun⟩
      | event e =>
          obtain ⟨he, hrest⟩ := List.forall_mem_cons.mp
            (show ∀ x ∈ e :: signals.filterMap Signal.event?, OfHeader x from hsignals)
          obtain ⟨q, hq, haddress, hparams, hrun⟩ := takeEvent_header setting hp he
          obtain ⟨r, hr, haddress', hparams', hrun'⟩ := ih hrest hq
          refine ⟨r, hr, haddress'.trans haddress, ?_, ?_⟩
          · rw [hparams', hparams, List.append_assoc]
            rfl
          · intro σ linker s
            have hfirst : (p.take setting linker (.event e)).run s = (q, s) := hrun linker s
            rw [run_cons, hfirst]
            exact hrun' linker s

/-- At the end of the header the parameters are announced. -/
theorem takeEvent_headerEnd {p : Progress} (hp : p.failure? = none) {e : Event}
    (he : e.body = .headerEnd) (s : σ) :
    (p.takeEvent setting linker e).run s =
      (p, ((linker.declare p.address.template p.params.toList).run s).2) := by
  obtain ⟨line, depth, body⟩ := e
  obtain rfl : body = .headerEnd := he
  simp [takeEvent, hp, -bind_pure_comp]
  rfl

end Progress

/-! ## The content -/

variable (setting) in
/-- What an event of the content asks of a linker: nothing, the text to put into the
markup, or the callee of its call. -/
theorem Progress.takeEvent_content {p : Progress} (hp : p.failure? = none) {e : Event}
    (he : OfContent e) :
    (calleeOf p.address.template e = none ∧ ∃ q : Progress,
      ∀ {σ : Type} (linker : Linker σ) (s : σ), (p.takeEvent setting linker e).run s = (q, s)) ∨
    (calleeOf p.address.template e = none ∧ ∃ place : Interception,
      ∀ {σ : Type} (linker : Linker σ) (s : σ), (p.takeEvent setting linker e).run s =
        Prod.map (p.addText setting (e.depth + Dialect.bodyLevel)) id
          ((linker.intercept place).run s)) ∨
    ∃ (call : CallRef) (arguments : List Text.Slice), call.caller = p.address.template ∧
      calleeOf p.address.template e = some call.name ∧
      ∀ {σ : Type} (linker : Linker σ) (s : σ), (p.takeEvent setting linker e).run s =
        Prod.map (p.addCall (e.depth + Dialect.bodyLevel) e.line call.kind call.name arguments) id
          ((linker.resolve call).run s) := by
  obtain ⟨line, depth, body⟩ := e
  cases body with
  | headerEnd => exact absurd rfl he.1
  | param declaration param => exact absurd rfl (he.2.1 _ _)
  | call kind reference arguments =>
      refine Or.inr (Or.inr ⟨⟨p.address.template, line, kind,
        p.address.template.ofCall kind reference⟩, arguments, rfl, rfl, ?_⟩)
      intro σ linker s
      simp [takeEvent, hp, -bind_pure_comp]
      rfl
  | elementOpened e =>
      refine Or.inr (Or.inl ⟨rfl, .opened e.name e.attributes, ?_⟩)
      intro σ linker s
      simp [takeEvent, hp, interception?, -bind_pure_comp]
      rfl
  | elementClosed e =>
      refine Or.inr (Or.inl ⟨rfl, .closed e.name, ?_⟩)
      intro σ linker s
      simp [takeEvent, hp, interception?, -bind_pure_comp]
      rfl
  | attributeBegun e a =>
      refine Or.inr (Or.inl ⟨rfl, .begun e.name a.name e.attributes, ?_⟩)
      intro σ linker s
      simp [takeEvent, hp, interception?, -bind_pure_comp]
      rfl
  | _ =>
      refine Or.inl ⟨rfl, ?_⟩
      apply Exists.intro
      intro σ linker s
      simp [takeEvent, hp, interception?, instruction?]
      rfl

/-- The callees of signals that begin with an event. -/
theorem callees_cons (caller : Name) (e : Event) (signals : List Signal) :
    ((Signal.event e :: signals).filterMap Signal.event?).filterMap (calleeOf caller) =
      (calleeOf caller e).toList ++
        (signals.filterMap Signal.event?).filterMap (calleeOf caller) := by
  show (e :: signals.filterMap Signal.event?).filterMap (calleeOf caller) = _
  rw [List.filterMap_cons]
  cases calleeOf caller e <;> rfl

section Content

variable {caller : Name} {callable : List Name} {answer : Name → Callee}
  {put : Interception → String} {Faulty : Prop} {R : List Name → σ → Prop}

variable (setting) in
/-- Taking an event of the content, the linker answers as the fixed one, and its
state is as it should be behind the call; or it fails. -/
theorem Progress.takeEvent_follows (h : Follows linker caller callable answer put Faulty R)
    {p : Progress} (hp : p.failure? = none) (hcaller : p.address.template = caller) {e : Event}
    (he : OfContent e) (hcallable : ∀ n ∈ calleeOf caller e, n ∈ callable)
    {called : List Name} {s : σ} (hs : R called s) :
    (Faulty ∧ ((p.takeEvent setting linker e).run s).1.failure?.isSome = true) ∨
      (((p.takeEvent setting linker e).run s).1 =
          ((p.takeEvent setting (fixed answer put) e).run ()).1 ∧
        R (called ++ (calleeOf caller e).toList) ((p.takeEvent setting linker e).run s).2) := by
  subst hcaller
  rcases Progress.takeEvent_content setting hp he with
    ⟨hnone, q, htake⟩ | ⟨hnone, place, htake⟩ | ⟨call, arguments, hcaller, hcallee, htake⟩
  · right
    rw [htake, htake, hnone]
    refine ⟨rfl, ?_⟩
    simpa using hs
  · right
    obtain ⟨htext, hstate⟩ := h.intercept called s place hs
    rw [htake, htake, hnone, Prod.map_fst, htext]
    refine ⟨rfl, ?_⟩
    simpa using hstate
  · rw [htake, htake, hcallee, Prod.map_fst]
    rcases h.resolve called s call hs hcaller (hcallable _ hcallee) with
      ⟨hfaulty, failure, hfailure⟩ | ⟨hanswer, hstate⟩
    · left
      rw [hfailure]
      exact ⟨hfaulty, rfl⟩
    · right
      rw [hanswer]
      exact ⟨rfl, hstate⟩

variable (setting) in
/-- Once a call has failed, only problems are collected. -/
theorem run_stopped (signals : List Signal) {p : Progress} (hp : p.failure?.isSome = true) :
    ∃ q : Progress, q.failure?.isSome = true ∧ ∀ {σ : Type} (linker : Linker σ) (s : σ),
      ((signals.foldlM (Progress.take setting linker) p).run s).1 = q := by
  induction signals generalizing p with
  | nil => exact ⟨p, hp, fun _ _ => rfl⟩
  | cons x signals ih =>
      cases x with
      | problem problem =>
          obtain ⟨q, hq, hrun⟩ := ih (p := p.addDiagnostic problem.diagnostic) hp
          exact ⟨q, hq, fun linker s => hrun linker s⟩
      | event e =>
          obtain ⟨q, hq, hrun⟩ := ih hp
          refine ⟨q, hq, ?_⟩
          intro σ linker s
          rw [run_cons, ← hrun linker ((p.takeEvent setting linker e).run s).2]
          rw [show ((p.take setting linker (.event e)).run s).1 = p from
            Progress.takeEvent_failed hp e s]
          rfl

variable (setting) in
/-- **A run over the content goes as with the fixed linker**, or it fails. -/
theorem run_follows (h : Follows linker caller callable answer put Faulty R)
    (signals : List Signal) (hcontent : ∀ e ∈ signals.filterMap Signal.event?, OfContent e)
    (hcallable : ∀ n ∈ (signals.filterMap Signal.event?).filterMap (calleeOf caller),
      n ∈ callable)
    {p : Progress} (hp : p.failure? = none) (hcaller : p.address.template = caller)
    {called : List Name} {s : σ} (hs : R called s) :
    (Faulty ∧
        ((signals.foldlM (Progress.take setting linker) p).run s).1.failure?.isSome = true) ∨
      (((signals.foldlM (Progress.take setting linker) p).run s).1 =
          ((signals.foldlM (Progress.take setting (fixed answer put)) p).run ()).1 ∧
        (((signals.foldlM (Progress.take setting linker) p).run s).1.failure? = none →
          R (called ++ (signals.filterMap Signal.event?).filterMap (calleeOf caller))
            ((signals.foldlM (Progress.take setting linker) p).run s).2)) := by
  induction signals generalizing p called s with
  | nil =>
      right
      refine ⟨rfl, ?_⟩
      intro _
      show R (called ++ []) s
      rwa [List.append_nil]
  | cons x signals ih =>
      cases x with
      | problem problem =>
          exact ih hcontent hcallable (p := p.addDiagnostic problem.diagnostic) hp hcaller hs
      | event e =>
          obtain ⟨he, hrest⟩ := List.forall_mem_cons.mp
            (show ∀ x ∈ e :: signals.filterMap Signal.event?, OfContent x from hcontent)
          rw [callees_cons] at hcallable ⊢
          rw [run_cons, run_cons, ← List.append_assoc]
          have htaken := Progress.takeEvent_follows setting h hp hcaller he
            (fun n hn => hcallable n (List.mem_append_left _ (Option.mem_toList.mpr hn))) hs
          have haddress := Progress.takeEvent_address setting linker p e s
          simp only [Progress.take]
          cases hq : ((p.takeEvent setting linker e).run s).1.failure? with
          | some failure =>
              -- A failed call settles the matter, whichever linker goes on.
              have hstopped : ((p.takeEvent setting linker e).run s).1.failure?.isSome = true := by
                rw [hq]
                rfl
              obtain ⟨q, hfailed, hrun⟩ := run_stopped setting signals hstopped
              rcases htaken with ⟨hfaulty, -⟩ | ⟨hsame, -⟩
              · left
                rw [hrun]
                exact ⟨hfaulty, hfailed⟩
              · right
                rw [← hsame, hrun, hrun]
                refine ⟨rfl, ?_⟩
                intro hnone
                rw [hnone] at hfailed
                cases hfailed
          | none =>
              rcases htaken with ⟨-, hfailed⟩ | ⟨hsame, hstate⟩
              · rw [hq] at hfailed
                cases hfailed
              · rw [← hsame]
                apply ih hrest _ hq
                · rw [haddress]
                  exact hcaller
                · exact hstate
                · intro n hn
                  exact hcallable n (List.mem_append_right _ hn)

end Content

/-! ## Units -/

/-- **Generation is a run over the content of the template**, once its parameters
have been announced. -/
theorem progress_content (setting : Setting) (address : Address) (source : String) :
    ∃ (p : Progress) (content : List Signal), p.failure? = none ∧ p.address = address ∧
      p.params.toList = declared setting address.template source ∧
      (∀ e ∈ content.filterMap Signal.event?, OfContent e) ∧
      (content.filterMap Signal.event?).filterMap (calleeOf address.template) =
        callees setting address.template source ∧
      ∀ {σ : Type} (linker : Linker σ) (s : σ),
        (progress setting linker address address.kind source).run s =
          (content.foldlM (Progress.take setting linker) p).run
            ((linker.declare address.template
              (declared setting address.template source)).run s).2 := by
  obtain ⟨header, x, content, hevents, hx, hheader, hcontent⟩ :=
    Scan.events_hasHeader ⟨address.kind, setting.interest?⟩ source.toList
  have hsplit : (Scan.signals ⟨address.kind, setting.interest?⟩ source.toList).filterMap
      Signal.event? = header ++ x :: content := hevents
  obtain ⟨first, rest, hsignals, rfl, hrest⟩ := List.filterMap_eq_append_iff.mp hsplit
  obtain ⟨between, y, behind, rfl, hbetween, hy, rfl⟩ := List.filterMap_eq_cons_iff.mp hrest
  obtain rfl : y = .event x := by
    cases y with
    | event e => exact congrArg _ (Option.some.inj hy)
    | problem problem => cases hy
  -- Up to the end of the header, with problems in between, no linker is asked.
  have hbefore : (first ++ between).filterMap Signal.event? = first.filterMap Signal.event? := by
    rw [List.filterMap_append, List.filterMap_eq_nil_iff.mpr hbetween, List.append_nil]
  obtain ⟨p, hp, haddress, hparams, hrun⟩ := Progress.run_header setting
    (first ++ between) (by rw [hbefore]; exact hheader)
    (p := { address, kind := address.kind }) rfl
  have hdeclared : p.params.toList = declared setting address.template source := by
    have hnone : (behind.filterMap Signal.event?).flatMap paramsOf = [] := by
      apply List.flatMap_eq_nil_iff.mpr
      intro e he
      exact paramsOf_of_content (hcontent e he)
    have hend : paramsOf x = [] := by
      unfold paramsOf
      rw [hx]
    rw [hparams, hbefore]
    unfold declared
    rw [show address.template.kind = address.kind from rfl, hevents, List.flatMap_append,
      List.flatMap_cons, hend, hnone, List.append_nil, List.append_nil]
    rfl
  refine ⟨p, behind, hp, haddress, hdeclared, hcontent, ?_, ?_⟩
  · have hnone : (first.filterMap Signal.event?).filterMap (calleeOf address.template) = [] := by
      apply List.filterMap_eq_nil_iff.mpr
      intro e he
      exact calleeOf_of_header (hheader e he) _
    have hend : calleeOf address.template x = none := by
      unfold calleeOf
      rw [hx]
    unfold callees
    rw [show address.template.kind = address.kind from rfl, hevents, List.filterMap_append,
      hnone, List.filterMap_cons_none hend, List.nil_append]
  · intro σ linker s
    unfold progress
    rw [hsignals, show first ++ (between ++ Signal.event x :: behind) =
      (first ++ between) ++ Signal.event x :: behind by simp, run_append, hrun,
      run_cons]
    show ((behind.foldlM (Progress.take setting linker)
      ((p.takeEvent setting linker x).run s).1).run ((p.takeEvent setting linker x).run s).2) = _
    rw [Progress.takeEvent_headerEnd hp hx, haddress, hdeclared]

theorem Progress.finish_failed {p : Progress} (hp : p.failure?.isSome = true) :
    ∃ failure, p.finish = .error failure := by
  unfold finish
  split
  · cases hf : p.failure? with
    | none =>
        rw [hf] at hp
        cases hp
    | some failure => exact ⟨failure, rfl⟩
  · exact ⟨_, rfl⟩

theorem generate_fst (setting : Setting) (linker : Linker σ) (address : Address)
    (source : String) (s : σ) : ((generate setting linker address source).run s).1 =
      ((progress setting linker address address.kind source).run s).1.finish := by
  simp only [generate, StateT.run_bind, fst_bind, StateT.run_pure, fst_pure]

theorem generate_snd (setting : Setting) (linker : Linker σ) (address : Address)
    (source : String) (s : σ) : ((generate setting linker address source).run s).2 =
      ((progress setting linker address address.kind source).run s).2 := by
  simp only [generate, StateT.run_bind, snd_bind, StateT.run_pure, snd_pure]

/-- **Generation asks for nothing but the callees of the template.** With a
linker that follows fixed answers it comes to what the fixed linker comes to, and
leaves the linker in the state behind all calls; unless the linker fails. -/
theorem generate_follows {address : Address} {source : String} {answer : Name → Callee}
    {put : Interception → String} {Faulty : Prop} {R : List Name → σ → Prop}
    (h : Follows linker address.template (callees setting address.template source) answer put
      Faulty R) {s : σ}
    (hs : R [] ((linker.declare address.template
      (declared setting address.template source)).run s).2) :
    (Faulty ∧ ∃ failure, ((generate setting linker address source).run s).1 = .error failure) ∨
      (((generate setting linker address source).run s).1 =
          ((generate setting (fixed answer put) address source).run ()).1 ∧
        ∀ unit, ((generate setting linker address source).run s).1 = .ok unit →
          R (callees setting address.template source)
            ((generate setting linker address source).run s).2) := by
  obtain ⟨p, content, hp, haddress, -, hcontent, hcallees, hrun⟩ :=
    progress_content setting address source
  have hfollowed := run_follows setting h content hcontent
    (by rw [hcallees]; exact fun n hn => hn) hp (by rw [haddress]) hs
  rw [← hrun, hcallees, List.nil_append,
    show (content.foldlM (Progress.take setting (fixed answer put)) p).run () =
      (progress setting (fixed answer put) address address.kind source).run () from
      (hrun (fixed answer put) ()).symm] at hfollowed
  rw [generate_fst, generate_fst, generate_snd]
  rcases hfollowed with ⟨hfaulty, hfailed⟩ | ⟨hsame, hstate⟩
  · left
    exact ⟨hfaulty, Progress.finish_failed hfailed⟩
  · right
    constructor
    · rw [hsame]
    · intro unit hunit
      exact hstate (Progress.finish_eq_ok hunit).2.1

end Templating.Generation
