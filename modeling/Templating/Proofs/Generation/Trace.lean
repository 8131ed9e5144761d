import Templating.Generation
import Templating.Proofs.Scan.Lines

/-!
# Traces of generation

Generation takes one event after the other, and each event gives the unit one
thing: static text, an instruction, or nothing at all. A trace is the events of
a template, each with what it gives. The body of the unit, its binary and its
header can be read off the trace: `Ran` says how.
-/

namespace Templating.Generation

open Scan (lineEnds NumberedFrom)
open Progress (instruction? interception?)

variable {σ : Type} {setting : Setting} {linker : Linker σ}

/-! ## What an event gives the unit -/

inductive Effect where
  /-- Static text, of the template or put into its markup. -/
  | static (text : String)
  | code (i : Dialect.Instruction)
  | nothing

namespace Effect

/-- The parts that go to the binary: static text, if it is long. -/
def parts (setting : Setting) : Effect → List (List UInt8)
  | static text => if setting.isLong text then [Text.toBytes text.toList] else []
  | _ => []

/-- The instructions, if so many bytes are in the binary already. -/
def instructions (setting : Setting) (offset : Nat) : Effect → List Dialect.Instruction
  | static text =>
      if setting.isLong text then [.binary offset (offset + Text.byteSize text.toList)]
      else (Literal.split setting.maxLiteral text).map .text
  | code i => [i]
  | nothing => []

end Effect

/-- The call of a callee, with what is passed for its parameters. -/
def callInstruction (callee : Address) (values : List String) : CallKind → Dialect.Instruction
  | .tag => .tagCall callee values
  | .layout => .layoutBegin callee values

/-- The event gives the unit nothing: it is about the template itself. -/
def isSilent : Event.Body → Bool
  | .lineEnd | .imported _ | .param .. | .headerEnd | .complete => true
  | _ => false

/-- What an event may give the unit. The linker answers for the callee of a
call and for the text put into the markup, in whatever state it is asked. -/
inductive Gives (linker : Linker σ) (address : Address) (kind : Kind) : Event → Effect → Prop
  | text (line depth : Nat) (run : Text.Slice) :
      Gives linker address kind ⟨line, depth, .text run⟩ (.static run.text)
  | put {e : Event} {place : Interception} (h : interception? e.body = some place) (s : σ) :
      Gives linker address kind e (.static ((linker.intercept place).run s).1)
  | code {e : Event} {i : Dialect.Instruction} (h : instruction? kind e.body = some i) :
      Gives linker address kind e (.code i)
  | call {line : Nat} (depth : Nat) {called : CallKind} {reference : String}
      {arguments : List Text.Slice} {callee : Callee} {bound : List Bound} (s : σ)
      (hanswer : ((linker.resolve ⟨address.template, line, called,
        address.template.ofCall called reference⟩).run s).1 = .ok callee)
      (hbound : Binding.bind callee.params (arguments.map fun a => Argument.classify a.text) =
        .ok bound) :
      Gives linker address kind ⟨line, depth, .call called reference arguments⟩
        (.code (callInstruction callee.address
          (bound.map (Dialect.spelling address.target).argument) called))
  | nothing {e : Event} (h : isSilent e.body = true) : Gives linker address kind e .nothing

/-- An event that calls for an instruction by itself gives it. -/
theorem Gives.of_instruction {address : Address} {kind : Kind} {e : Event} {effect : Effect}
    {i : Dialect.Instruction} (h : Gives linker address kind e effect)
    (hi : instruction? kind e.body = some i) : effect = .code i := by
  cases h with
  | text line depth run => exact absurd hi (by simp [instruction?])
  | put hplace s =>
      generalize e.body = body at hi hplace
      cases body <;> first | (cases hi; done) | cases hplace
  | code hi' => rw [Option.some.inj (hi.symm.trans hi')]
  | call depth s _ _ => exact absurd hi (by simp [instruction?])
  | nothing hsilent =>
      generalize e.body = body at hi hsilent
      cases body <;> first | (cases hi; done) | cases hsilent

/-- A linker for a template on its own: it knows no other, and puts nothing into
the markup. -/
def solitary : Linker Unit where
  resolve ref := return .error (.notFound ref.name none)
  declare _ _ := return ()
  intercept _ := return ""

/-! ## Traces -/

/-- An event and what it gives the unit. -/
structure Entry where
  event : Event
  effect : Effect

/-- What the entries write, if so many bytes are in the binary already: each
instruction comes from the line of its event. -/
def placements (setting : Setting) : Nat → List Entry → List Placed
  | _, [] => []
  | offset, entry :: rest =>
      (entry.effect.instructions setting offset).map
          (⟨entry.event.line, entry.event.depth + Dialect.bodyLevel, ·⟩) ++
        placements setting (offset + (entry.effect.parts setting).flatten.length) rest

/-- The parts of the binary that come from the entries. -/
def parts (setting : Setting) (entries : List Entry) : List (List UInt8) :=
  entries.flatMap fun entry => entry.effect.parts setting

/-- The imports that an event declares. -/
def importsOf (e : Event) : List String :=
  match e.body with
  | .imported path => [Text.trimmed path.text]
  | _ => []

/-- The parameters that an event declares. -/
def paramsOf (e : Event) : List Param :=
  match e.body with
  | .param _ param => [param]
  | _ => []

/-- From `p`, the entries lead to `q`. -/
structure Ran (setting : Setting) (linker : Linker σ) (p : Progress) (entries : List Entry)
    (q : Progress) : Prop where
  address : q.address = p.address
  kind : q.kind = p.kind
  gives : ∀ entry ∈ entries, Gives linker p.address p.kind entry.event entry.effect
  imports : q.imports.toList = p.imports.toList ++ (entries.map Entry.event).flatMap importsOf
  params : q.params.toList = p.params.toList ++ (entries.map Entry.event).flatMap paramsOf
  body : q.body.toList = p.body.toList ++ placements setting p.binaryLength entries
  parts : q.binaryParts.toList = p.binaryParts.toList ++ Generation.parts setting entries
  binaryLength :
    q.binaryLength = p.binaryLength + (Generation.parts setting entries).flatten.length
  templateLine : q.templateLine = p.templateLine + lineEnds (entries.map Entry.event)

theorem placements_append (setting : Setting) (offset : Nat) (xs ys : List Entry) :
    placements setting offset (xs ++ ys) = placements setting offset xs ++
      placements setting (offset + (parts setting xs).flatten.length) ys := by
  induction xs generalizing offset with
  | nil => rfl
  | cons entry xs ih =>
      rw [List.cons_append, placements, ih, placements, List.append_assoc]
      simp [parts, Nat.add_assoc]

namespace Ran

variable {p q r : Progress} {xs ys : List Entry}

theorem refl (setting : Setting) (linker : Linker σ) (p : Progress) :
    Ran setting linker p [] p := by
  constructor <;> simp [placements, Generation.parts, lineEnds]

theorem trans (h : Ran setting linker p xs q) (h' : Ran setting linker q ys r) :
    Ran setting linker p (xs ++ ys) r where
  address := h'.address.trans h.address
  kind := h'.kind.trans h.kind
  gives := by
    intro entry hentry
    rcases List.mem_append.mp hentry with hentry | hentry
    · exact h.gives entry hentry
    · have := h'.gives entry hentry
      rwa [h.address, h.kind] at this
  imports := by rw [h'.imports, h.imports, List.map_append, List.flatMap_append, List.append_assoc]
  params := by rw [h'.params, h.params, List.map_append, List.flatMap_append, List.append_assoc]
  body := by rw [h'.body, h.body, h.binaryLength, placements_append, List.append_assoc]
  parts := by
    rw [h'.parts, h.parts, List.append_assoc]
    simp [Generation.parts]
  binaryLength := by
    rw [h'.binaryLength, h.binaryLength, Nat.add_assoc]
    simp [Generation.parts]
  templateLine := by
    rw [h'.templateLine, h.templateLine, List.map_append, Scan.lineEnds_append, Nat.add_assoc]

end Ran

/-! ## Taking an event -/

/-! A run is in the identity monad: its result is found by running. -/

section Run

variable {α β γ : Type}

@[simp] theorem fst_pure (x : α × β) : (pure x : Id (α × β)).1 = x.1 := rfl

@[simp] theorem fst_bind (x : Id γ) (f : γ → Id (α × β)) : (x >>= f).1 = (f x).1 := rfl

@[simp] theorem snd_pure (x : α × β) : (pure x : Id (α × β)).2 = x.2 := rfl

@[simp] theorem snd_bind (x : Id γ) (f : γ → Id (α × β)) : (x >>= f).2 = (f x).2 := rfl

end Run

namespace Progress

variable {p q : Progress} {e : Event}

theorem addLiterals_eq (p : Progress) (setting : Setting) (level : Nat) (text : String) :
    p.addLiterals setting level text =
      { p with body := p.body ++ ((Literal.split setting.maxLiteral text).map
          fun piece => (⟨p.templateLine, level, .text piece⟩ : Placed)).toArray } := by
  unfold addLiterals
  induction Literal.split setting.maxLiteral text generalizing p with
  | nil => simp
  | cons piece pieces ih =>
      rw [List.foldl_cons, ih]
      simp [add]

/-- An event without effect on the body. -/
theorem ran_silent (hsilent : isSilent e.body = true)
    (haddress : q.address = p.address) (hkind : q.kind = p.kind)
    (himports : q.imports.toList = p.imports.toList ++ importsOf e)
    (hparams : q.params.toList = p.params.toList ++ paramsOf e)
    (hbody : q.body = p.body) (hparts : q.binaryParts = p.binaryParts)
    (hlength : q.binaryLength = p.binaryLength)
    (hline : q.templateLine = p.templateLine + lineEnds [e]) :
    Ran setting linker p [⟨e, .nothing⟩] q where
  address := haddress
  kind := hkind
  gives entry hentry := by
    rw [List.mem_singleton.mp hentry]
    exact .nothing hsilent
  imports := by simpa using himports
  params := by simpa using hparams
  body := by simp [placements, Effect.instructions, hbody]
  parts := by simp [Generation.parts, Effect.parts, hparts]
  binaryLength := by simp [Generation.parts, Effect.parts, hlength]
  templateLine := hline

/-- An event that is not silent declares nothing and ends no line. -/
theorem of_not_isSilent (h : isSilent e.body = false) :
    importsOf e = [] ∧ paramsOf e = [] ∧ lineEnds [e] = 0 := by
  obtain ⟨line, depth, body⟩ := e
  cases body <;> first | exact ⟨rfl, rfl, rfl⟩ | exact absurd h (by simp [isSilent])

/-- One instruction is added, on the line of its event. -/
theorem ran_add {i : Dialect.Instruction} (hsilent : isSilent e.body = false)
    (hline : e.line = p.templateLine) (h : Gives linker p.address p.kind e (.code i)) :
    Ran setting linker p [⟨e, .code i⟩] (p.add (e.depth + Dialect.bodyLevel) i) := by
  obtain ⟨himports, hparams, hends⟩ := of_not_isSilent hsilent
  constructor
  case gives =>
    intro entry hentry
    rw [List.mem_singleton.mp hentry]
    exact h
  all_goals
    simp [add, placements, Effect.instructions, Effect.parts, Generation.parts, himports, hparams,
      hends, hline]

/-- Static text is added, on the line of its event. -/
theorem ran_addText {text : String} (hsilent : isSilent e.body = false)
    (hline : e.line = p.templateLine) (h : Gives linker p.address p.kind e (.static text)) :
    Ran setting linker p [⟨e, .static text⟩]
      (p.addText setting (e.depth + Dialect.bodyLevel) text) := by
  obtain ⟨himports, hparams, hends⟩ := of_not_isSilent hsilent
  -- Long text goes into the binary, short text into literals; it is the same effect.
  have hgives : ∀ entry ∈ [Entry.mk e (.static text)],
      Gives linker p.address p.kind entry.event entry.effect := by
    intro entry hentry
    rw [List.mem_singleton.mp hentry]
    exact h
  unfold addText
  split
  · rename_i hlong
    constructor
    case gives => exact hgives
    all_goals
      simp [addBinary, add, placements, Effect.instructions, Effect.parts, Generation.parts, hlong,
        himports, hparams, hends, hline, Text.length_toBytes]
  · rename_i hshort
    rw [addLiterals_eq]
    constructor
    case gives => exact hgives
    all_goals
      simp [placements, Effect.instructions, Effect.parts, Generation.parts, hshort, himports,
        hparams, hends, hline]

/-- A call that is added gives the unit one instruction. -/
theorem ran_addCall {line depth : Nat} {called : CallKind} {reference : String}
    {arguments : List Text.Slice} (s : σ) (hline : line = p.templateLine)
    (h : (p.addCall (depth + Dialect.bodyLevel) line called
      (p.address.template.ofCall called reference) arguments
      ((linker.resolve ⟨p.address.template, line, called,
        p.address.template.ofCall called reference⟩).run s).1).failure? = none) :
    ∃ effect, Ran setting linker p [⟨⟨line, depth, .call called reference arguments⟩, effect⟩]
      (p.addCall (depth + Dialect.bodyLevel) line called
        (p.address.template.ofCall called reference) arguments
        ((linker.resolve ⟨p.address.template, line, called,
          p.address.template.ofCall called reference⟩).run s).1) := by
  cases hanswer : ((linker.resolve ⟨p.address.template, line, called,
      p.address.template.ofCall called reference⟩).run s).1 with
  | error failure =>
      rw [hanswer] at h
      exact absurd h (by simp [addCall, fail])
  | ok callee =>
      cases hbound : Binding.bind callee.params
          (arguments.map fun a => Argument.classify a.text) with
      | error problem =>
          rw [hanswer] at h
          exact absurd h (by simp [addCall, hbound, fail])
      | ok bound =>
          have hadd : p.addCall (depth + Dialect.bodyLevel) line called
              (p.address.template.ofCall called reference) arguments (.ok callee) =
              p.add (depth + Dialect.bodyLevel) (callInstruction callee.address
                (bound.map (Dialect.spelling p.address.target).argument) called) := by
            simp only [addCall, hbound]
            cases called <;> rfl
          rw [hadd]
          exact ⟨_, ran_add rfl hline (.call depth s hanswer hbound)⟩

/-- **Taking an event without a failure** adds what the event gives. -/
theorem ran_takeEvent (hline : e.line = p.templateLine) (hp : p.failure? = none) (s : σ)
    (h : ((p.takeEvent setting linker e).run s).1.failure? = none) :
    ∃ effect, Ran setting linker p [⟨e, effect⟩] ((p.takeEvent setting linker e).run s).1 := by
  obtain ⟨line, depth, body⟩ := e
  -- Most events either let the linker put text or give an instruction of their own.
  have hput (place : Interception) (hplace : interception? body = some place)
      (hsilent : isSilent body = false) (text : String)
      (htext : text = ((linker.intercept place).run s).1) :
      ∃ effect, Ran setting linker p [⟨⟨line, depth, body⟩, effect⟩]
        (p.addText setting (depth + Dialect.bodyLevel) text) := by
    subst htext
    exact ⟨_, ran_addText hsilent hline (.put hplace s)⟩
  have hcode (i : Dialect.Instruction) (hi : instruction? p.kind body = some i)
      (hsilent : isSilent body = false) :
      ∃ effect, Ran setting linker p [⟨⟨line, depth, body⟩, effect⟩]
        (p.add (depth + Dialect.bodyLevel) i) :=
    ⟨_, ran_add hsilent hline (.code hi)⟩
  cases body with
  | lineEnd =>
      refine ⟨.nothing, ?_⟩
      apply ran_silent rfl <;> simp [takeEvent, hp, importsOf, paramsOf, lineEnds, ← hline]
  | imported path =>
      refine ⟨.nothing, ?_⟩
      apply ran_silent rfl <;> simp [takeEvent, hp, importsOf, paramsOf, lineEnds, -bind_pure_comp]
  | param declaration param =>
      refine ⟨.nothing, ?_⟩
      have hadd : ((p.takeEvent setting linker ⟨line, depth, .param declaration param⟩).run s).1 =
          p.addParam line param := by
        simp [takeEvent, hp]
      rw [hadd]
      unfold addParam
      simp only
      split <;> apply ran_silent rfl <;> simp [addDiagnostic, importsOf, paramsOf, lineEnds]
  | headerEnd =>
      refine ⟨.nothing, ?_⟩
      apply ran_silent rfl <;> simp [takeEvent, hp, importsOf, paramsOf, lineEnds, -bind_pure_comp]
  | complete =>
      refine ⟨.nothing, ?_⟩
      apply ran_silent rfl <;>
        simp [takeEvent, hp, importsOf, paramsOf, lineEnds, interception?, instruction?]
  | text run =>
      have hadd : ((p.takeEvent setting linker ⟨line, depth, .text run⟩).run s).1 =
          p.addText setting (depth + Dialect.bodyLevel) run.text := by
        simp [takeEvent, hp]
      rw [hadd]
      exact ⟨_, ran_addText rfl hline (.text line depth run)⟩
  | call called reference arguments =>
      have hadd : ((p.takeEvent setting linker
          ⟨line, depth, .call called reference arguments⟩).run s).1 =
          p.addCall (depth + Dialect.bodyLevel) line called
            (p.address.template.ofCall called reference) arguments
            ((linker.resolve ⟨p.address.template, line, called,
              p.address.template.ofCall called reference⟩).run s).1 := by
        simp [takeEvent, hp, -bind_pure_comp]
      rw [hadd] at h ⊢
      exact ran_addCall s hline h
  | elementOpened e =>
      simpa [takeEvent, hp, interception?, -bind_pure_comp] using hput _ rfl rfl _ rfl
  | elementClosed e =>
      simpa [takeEvent, hp, interception?, -bind_pure_comp] using hput _ rfl rfl _ rfl
  | attributeBegun e a =>
      simpa [takeEvent, hp, interception?, -bind_pure_comp] using hput _ rfl rfl _ rfl
  | _ =>
      simpa [takeEvent, hp, interception?, instruction?] using hcode _ rfl rfl

/-- Once a call has failed, taking an event does nothing. -/
theorem takeEvent_stopped {p : Progress} (hp : p.failure?.isSome = true) (e : Event) (s : σ) :
    (p.takeEvent setting linker e).run s = (p, s) := by
  simp [takeEvent, hp]
  rfl

/-- A failure stays. -/
theorem takeEvent_failed {p : Progress} (hp : p.failure?.isSome = true) (e : Event) (s : σ) :
    ((p.takeEvent setting linker e).run s).1 = p := by
  rw [takeEvent_stopped hp]

theorem addDiagnostic_ran (p : Progress) (d : Diagnostic) :
    Ran setting linker p [] (p.addDiagnostic d) := by
  constructor <;> simp [addDiagnostic, placements, Generation.parts, lineEnds]

end Progress

/-! ## A whole run -/

/-- What taking the signals leads to, one after the other. -/
theorem run_cons (signal : Scan.Signal) (signals : List Scan.Signal) (p : Progress) (s : σ) :
    ((signal :: signals).foldlM (Progress.take setting linker) p).run s =
      (signals.foldlM (Progress.take setting linker)
        ((p.take setting linker signal).run s).1).run
          ((p.take setting linker signal).run s).2 := by
  rw [List.foldlM_cons]
  rfl

/-- A run of two lists is the run of one after the other. -/
theorem run_append (xs ys : List Scan.Signal) (p : Progress) (s : σ) :
    ((xs ++ ys).foldlM (Progress.take setting linker) p).run s =
      (ys.foldlM (Progress.take setting linker)
        ((xs.foldlM (Progress.take setting linker) p).run s).1).run
          ((xs.foldlM (Progress.take setting linker) p).run s).2 := by
  rw [List.foldlM_append]
  rfl

theorem run_failed (signals : List Scan.Signal) {p : Progress} (hp : p.failure?.isSome = true)
    (s : σ) :
    ((signals.foldlM (Progress.take setting linker) p).run s).1.failure?.isSome = true := by
  induction signals generalizing p s with
  | nil => exact hp
  | cons signal signals ih =>
      rw [run_cons]
      cases signal with
      | problem problem => exact ih (p := p.addDiagnostic problem.diagnostic) hp s
      | event e => exact ih (by simpa [Progress.take, Progress.takeEvent_failed hp] using hp) _

/-- A failure stays, so a run that ends without one had none before an event, nor
after it. -/
theorem run_event_succeeded {signals : List Scan.Signal} {p : Progress} {e : Event} {s : σ}
    (h : (((Scan.Signal.event e :: signals).foldlM (Progress.take setting linker) p).run
      s).1.failure? = none) :
    p.failure? = none ∧ ((p.takeEvent setting linker e).run s).1.failure? = none := by
  rw [run_cons] at h
  have hafter : ((p.takeEvent setting linker e).run s).1.failure? = none := by
    rw [← Option.not_isSome_iff_eq_none]
    intro hfailed
    exact absurd (run_failed signals hfailed _) (by simpa [Progress.take] using h)
  refine ⟨?_, hafter⟩
  rw [← Option.not_isSome_iff_eq_none]
  intro hfailed
  rw [Progress.takeEvent_failed hfailed] at hafter
  simp [hafter] at hfailed

/-- **A run without a failure has a trace.** -/
theorem ran_signals (signals : List Scan.Signal) (p : Progress) (s : σ)
    (hnumbered : NumberedFrom p.templateLine (signals.filterMap Scan.Signal.event?))
    (h : ((signals.foldlM (Progress.take setting linker) p).run s).1.failure? = none) :
    ∃ entries, entries.map Entry.event = signals.filterMap Scan.Signal.event? ∧
      Ran setting linker p entries
        ((signals.foldlM (Progress.take setting linker) p).run s).1 := by
  induction signals generalizing p s with
  | nil => exact ⟨[], rfl, .refl setting linker p⟩
  | cons signal signals ih =>
      cases signal with
      | problem problem =>
          rw [run_cons] at h ⊢
          obtain ⟨entries, hentries, hran⟩ := ih (p.addDiagnostic problem.diagnostic) s hnumbered h
          exact ⟨entries, hentries, (p.addDiagnostic_ran _).trans hran⟩
      | event e =>
          have hnumbered' : NumberedFrom p.templateLine
              (e :: signals.filterMap Scan.Signal.event?) := hnumbered
          obtain ⟨hp, hnext⟩ := run_event_succeeded h
          rw [run_cons] at h ⊢
          obtain ⟨effect, hstep⟩ := Progress.ran_takeEvent hnumbered'.head hp s hnext
          obtain ⟨entries, hentries, hrest⟩ := ih _ _
            (by rw [show Progress.take setting linker p (.event e) = p.takeEvent setting linker e
                  from rfl, hstep.templateLine]
                exact hnumbered'.tail) h
          exact ⟨⟨e, effect⟩ :: entries, by rw [List.map_cons, hentries]; rfl, hstep.trans hrest⟩

/-- The trace of a generation: the events of the template, each with what it
gives, and where they lead. -/
structure Trace (setting : Setting) (linker : Linker σ) (address : Address) (kind : Kind)
    (source : String) (entries : List Entry) (p : Progress) : Prop where
  events : entries.map Entry.event = Scan.events ⟨kind, setting.interest?⟩ source.toList
  ran : Ran setting linker { address, kind } entries p

/-- **A generation without a failure has a trace.** -/
theorem trace_progress (address : Address) (kind : Kind) (source : String) (s : σ)
    (h : ((progress setting linker address kind source).run s).1.failure? = none) :
    ∃ entries, Trace setting linker address kind source entries
      ((progress setting linker address kind source).run s).1 := by
  have hnumbered := (Scan.events_numbered ⟨kind, setting.interest?⟩ source.toList).1
  unfold progress at h ⊢
  obtain ⟨entries, hentries, hran⟩ := ran_signals _ { address, kind } s hnumbered h
  exact ⟨entries, hentries, hran⟩

end Templating.Generation
