import Mathlib.Data.List.Induction
import Templating.Proofs.Scan.Header
import Templating.Proofs.Scan.Lines
import Templating.Proofs.Scan.Turn

/-!
# Where problems are found

A problem is found on the line that the ends of lines said before it count, just
as an event is. Only the problem at the end of the input looks back: it names a
construct that is still open, and the line on which that was entered. A construct
is told by the frames it stands on and by the line it was begun on, since a string
or a call changes while it stands.
-/

namespace Templating.Scan

/-! ## What a turn says -/

/-- Said in a turn: neither the end of a line nor that of the template. -/
def Passing (body : Event.Body) : Prop :=
  body ≠ .lineEnd ∧ body ≠ .complete

theorem passing_of_quotes {x : Text.Slice} {body : Event.Body} (h : Quotes x body) :
    Passing body := by
  constructor <;> rintro rfl <;> exact absurd h.slices (by simp [Event.Body.slices])

theorem passing_of_isMark {body : Event.Body} (h : body.isMark = true) : Passing body := by
  constructor <;> rintro rfl <;> exact absurd h (by decide)

/-- **A turn says at most one thing**, on the line it is made on. -/
theorem Turn.says {s t : State} (h : Turn s t) : t.signals = s.signals ∨
    (∃ (u : State) (body : Event.Body), u.line = s.line ∧ u.signals = s.signals ∧
      Passing body ∧ t.signals = (u.emit body).signals) ∨
    ∃ fault, (∀ k, fault ≠ .unterminated k) ∧
      t.signals = s.signals ++ [.problem ⟨s.line, fault⟩] := by
  have flush (s : State) (n : Nat) : (s.flush n).signals = s.signals ∨
      ∃ (u : State) (body : Event.Body), u.line = s.line ∧ u.signals = s.signals ∧
        Passing body ∧ (s.flush n).signals = (u.emit body).signals := by
    rcases s.flush_eq n with h | h
    · exact Or.inl (by rw [h])
    · exact Or.inr ⟨s, .text (s.slice n), rfl, rfl, ⟨by simp, by simp⟩, by rw [h]⟩
  cases h with
  | keep n => exact Or.inl rfl
  | handOut n m _ => exact (flush s n).imp_right Or.inl
  | markup elements closingTag => exact Or.inl rfl
  | report fault hf => exact Or.inr (Or.inr ⟨fault, hf, by simp [State.signals, State.report,
      State.signal]⟩)
  | deepen depth => exact Or.inl rfl
  | say body hbody => exact Or.inr (Or.inl ⟨s, body, rfl, rfl, passing_of_isMark hbody, rfl⟩)
  | quote n body _ _ hbody =>
      exact Or.inr (Or.inl ⟨s.settle, body, rfl, rfl, passing_of_quotes hbody, rfl⟩)
  | leaveQuoting n body _ _ hbody =>
      exact Or.inr (Or.inl ⟨s.pop.settle, body, by simp, s.pop_signals, passing_of_quotes hbody, rfl⟩)
  | split call _ _ => exact Or.inl (s.become_signals _)
  | call call angles _ _ =>
      exact Or.inr (Or.inl ⟨s.pop.settle, _, by simp, s.pop_signals, ⟨by simp, by simp⟩, rfl⟩)
  | comment n _ => exact (flush s n).imp_right Or.inl
  | commentEnd _ => exact Or.inl s.pop_signals
  | inside k _ _ _ => exact Or.inl rfl
  | enter k _ _ _ _ => exact Or.inl rfl
  | leave _ _ => exact Or.inl s.pop_signals
  | goOn k _ _ => exact Or.inl (s.become_signals k)

/-! ## The lines of problems -/

/-- Every problem but that at the end of the input is on the line that the ends of
lines before it count. -/
def Timely (signals : List Signal) : Prop :=
  ∀ before p after, signals = before ++ .problem p :: after →
    (∀ k, p.fault ≠ .unterminated k) → p.line = 1 + lineEnds (before.filterMap Signal.event?)

namespace Timely

variable {signals : List Signal}

theorem snoc (h : Timely signals) {x : Signal} (hx : ∀ p, x = .problem p →
    (∀ k, p.fault ≠ .unterminated k) →
      p.line = 1 + lineEnds (signals.filterMap Signal.event?)) : Timely (signals ++ [x]) := by
  intro before p after hsplit
  rcases snoc_eq_append_cons hsplit with ⟨rfl, hp, -⟩ | ⟨rest, -, hsignals⟩
  · exact hx p hp
  · exact h before p rest hsignals

theorem emit {s : State} (h : Timely s.signals) (body : Event.Body) :
    Timely (s.emit body).signals := by
  rw [State.emit_signals]
  unfold State.announcement
  split
  · exact h.snoc (by simp)
  · have hheader : Timely (s.signals ++ [.event ⟨s.line, s.depth, .headerEnd⟩]) :=
      h.snoc (by simp)
    rw [List.map_cons, List.append_cons]
    exact hheader.snoc (by simp)

end Timely

/-- What has been said is on its line, and nothing of it is said at the end. -/
structure Timed (s : State) : Prop where
  layered : Layered s.stack
  counted : Counted s
  timely : Timely s.signals
  goesOn : ∀ e ∈ s.events, e.body ≠ .complete
  midway : ∀ p ∈ s.problems, ∀ k, p.fault ≠ .unterminated k

namespace Timed

variable {s t : State}

theorem turn (hturn : Turn s t) (h : Timed s) : Timed t := by
  obtain ⟨-, -, hline⟩ := hturn.reading
  have hlayered := hturn.layered h.layered
  rcases hturn.says with hsignals | ⟨u, body, huline, husignals, hbody, hsignals⟩ |
    ⟨fault, hfault, hsignals⟩
  · have hevents : t.events = s.events := by rw [State.events, State.events, hsignals]
    have hproblems : t.problems = s.problems := by rw [State.problems, State.problems, hsignals]
    refine ⟨hlayered, h.counted.congr hline hevents, ?_, ?_, ?_⟩
    · rw [hsignals]
      exact h.timely
    · rw [hevents]
      exact h.goesOn
    · rw [hproblems]
      exact h.midway
  · have hu : u.events = s.events := by rw [State.events, State.events, husignals]
    have hevents : t.events = (u.emit body).events := by rw [State.events, State.events, hsignals]
    have hproblems : t.problems = s.problems := by
      rw [State.problems, hsignals, ← State.problems, State.emit_problems, State.problems,
        husignals, State.problems]
    have hcounted : Counted u := h.counted.congr huline hu
    have htimely : Timely u.signals := by rw [husignals]; exact h.timely
    refine ⟨hlayered, (hcounted.emit_other hbody.1).congr ?_ hevents, ?_, ?_, ?_⟩
    · rw [hline, State.emit_line, huline]
    · rw [hsignals]
      exact htimely.emit body
    · rw [hevents]
      exact u.forall_emit (P := (· ≠ .complete)) (by rw [hu]; exact h.goesOn) (by simp) hbody.2
    · rw [hproblems]
      exact h.midway
  · have hevents : t.events = s.events := by
      rw [State.events, State.events, hsignals, List.filterMap_append]
      exact List.append_nil _
    have hproblems : t.problems = s.problems ++ [⟨s.line, fault⟩] := by
      rw [State.problems, State.problems, hsignals, List.filterMap_append]
      rfl
    refine ⟨hlayered, h.counted.congr hline hevents, ?_, ?_, ?_⟩
    · rw [hsignals]
      apply h.timely.snoc
      intro p hp _
      obtain rfl := Signal.problem.inj hp
      exact h.counted.line
    · rw [hevents]
      exact h.goesOn
    · rw [hproblems]
      intro p hp
      rcases List.mem_append.mp hp with hp | hp
      · exact h.midway p hp
      · rw [List.mem_singleton.mp hp]
        exact hfault

end Timed

theorem timed_upheld : Upheld Timed where
  layered _ h := h.layered
  advance _ _ h := ⟨h.layered, h.counted.congr rfl rfl, h.timely, h.goesOn, h.midway⟩
  turn := Timed.turn
  newline s h := by
    refine ⟨?_, h.counted.newline, h.timely.emit .lineEnd, ?_, ?_⟩
    · simpa using h.layered
    · exact s.forall_emit (P := (· ≠ .complete)) h.goesOn (by simp) (by simp)
    · show ∀ p ∈ (s.emit .lineEnd).problems, _
      rw [State.emit_problems]
      exact h.midway

theorem timed_start : Timed {} := by
  refine ⟨trivial, counted_start, ?_, ?_, ?_⟩
  · intro before p after h
    exact absurd h (by simp [State.signals])
  · intro e he
    cases he
  · intro p hp
    cases hp

theorem timed_settled (setting : Setting) (source : List Char) :
    Timed (State.run setting {} source).settled :=
  timed_upheld.settled (timed_upheld.run setting timed_start source)

/-! ## What is said in the end -/

theorem State.reviewed_events (s : State) : s.reviewed.events = s.settled.events := by
  unfold reviewed
  split
  · exact signal_problem_events _ _
  · rfl

/-- **The last event is `complete`**, and it is the only one. -/
theorem events_complete (setting : Setting) (source : List Char) :
    ∃ es e, events setting source = es ++ [e] ∧ e.body = .complete ∧
      ∀ x ∈ es, x.body ≠ .complete := by
  have h := (timed_settled setting source).goesOn
  rw [← State.reviewed_events] at h
  rw [events_eq, State.finish_reviewed, State.emit_events]
  generalize (State.run setting {} source).reviewed = s at h
  unfold State.announcement
  split
  · exact ⟨s.events, _, rfl, rfl, h⟩
  · refine ⟨s.events ++ [⟨s.line, s.depth, .headerEnd⟩], _, by rw [List.append_assoc]; rfl, rfl, ?_⟩
    intro x hx
    rcases List.mem_append.mp hx with hx | hx
    · exact h x hx
    · rw [List.mem_singleton.mp hx]
      simp

/-- **Problems are on the line that the ends of lines before them count**, but for
that at the end of the input. -/
theorem signals_timely (setting : Setting) (source : List Char) :
    Timely (signals setting source) := by
  have h := (timed_settled setting source).timely
  show Timely (State.run setting {} source).finish.signals
  rw [State.finish_reviewed]
  apply Timely.emit
  unfold State.reviewed
  split
  · rename_i problem hproblem
    have hsnoc : Timely ((State.run setting {} source).settled.signals ++ [.problem problem]) := by
      apply h.snoc
      intro p hp hfault
      obtain rfl := Signal.problem.inj hp
      obtain ⟨frame, -, rfl⟩ := Option.map_eq_some_iff.mp hproblem
      exact absurd rfl (hfault frame.construct)
    simpa [State.signals, State.signal] using hsnoc
  · exact h

/-! ## What has been said stays said -/

/-- What has been said once stands at the beginning of what is said later. -/
theorem said_upheld (said : List Signal) :
    Upheld fun s => Layered s.stack ∧ said <+: s.signals where
  layered _ h := h.1
  advance _ _ h := h
  turn hturn h := by
    refine ⟨hturn.layered h.1, h.2.trans ?_⟩
    rcases hturn.says with hsignals | ⟨u, body, -, husignals, -, hsignals⟩ | ⟨fault, -, hsignals⟩
    · exact ⟨[], by rw [hsignals, List.append_nil]⟩
    · rw [hsignals, State.emit_signals, husignals]
      exact List.prefix_append _ _
    · rw [hsignals]
      exact List.prefix_append _ _
  newline s h := by
    refine ⟨by simpa using h.1, h.2.trans ?_⟩
    show s.signals <+: (s.emit .lineEnd).signals
    rw [State.emit_signals]
    exact List.prefix_append _ _

theorem State.settled_prefix (s : State) : s.settled.signals <+: s.finish.signals := by
  rw [finish_reviewed, emit_signals]
  refine List.IsPrefix.trans ?_ (List.prefix_append _ _)
  unfold reviewed
  split
  · simp [signals, signal]
  · exact List.prefix_refl _

/-- **At every moment of a scan** as many lines have ended as newlines have been
read, and nothing that has been said is taken back. -/
theorem through_lineEnds (setting : Setting) (read after : List Char) :
    (State.through setting {} read after).signals <+: signals setting (read ++ after) ∧
      lineEnds (State.through setting {} read after).events = read.count '\n' := by
  have hlayered := layered_upheld.through setting layered_start read after
  constructor
  · have hkept := said_upheld (State.through setting {} read after).signals
    have hrun := hkept.run setting ⟨hlayered, List.prefix_refl _⟩ after
    rw [← State.run_append] at hrun
    exact (hkept.settled hrun).2.trans (State.settled_prefix _)
  · have hcounted := (counted_invariant.through setting counted_start read after).line
    rw [State.through_line] at hcounted
    show lineEnds _ = _
    have hstart : ({} : State).line = 1 := rfl
    omega

/-! ## Where a construct has been entered -/

/-- The construct, begun on that line, stands on the frames `below`. -/
def Stands (k : Construct) (line : Nat) (below : List Frame) (s : State) : Prop :=
  ∃ k', k'.begun = k.begun ∧ ⟨k', line⟩ :: below <:+ s.stack

/-- What a turn does to the stack: it ends constructs, begins one, or goes on with
the innermost one. -/
theorem Turn.stack {s t : State} (h : Turn s t) : t.stack <:+ s.stack ∨
    (∃ k, t.stack = ⟨k, s.line⟩ :: s.stack) ∨
    ∃ frame k rest, s.stack = frame :: rest ∧ t.stack = { frame with construct := k } :: rest ∧
      frame.construct.begun = k.begun := by
  have become (k : Construct) (hk : s.top.begun = k.begun) : (s.become k).stack <:+ s.stack ∨
      (∃ k', (s.become k).stack = ⟨k', s.line⟩ :: s.stack) ∨
      ∃ frame k' rest, s.stack = frame :: rest ∧
        (s.become k).stack = { frame with construct := k' } :: rest ∧
        frame.construct.begun = k'.begun := by
    unfold State.become
    unfold State.top at hk
    cases hstack : s.stack with
    | nil => exact Or.inl (by simp [hstack])
    | cons frame rest =>
        rw [hstack] at hk
        exact Or.inr (Or.inr ⟨frame, k, rest, rfl, rfl, hk⟩)
  have htail : s.stack.tail <:+ s.stack := List.tail_suffix _
  cases h with
  | keep n => exact Or.inl (List.suffix_refl _)
  | handOut n m _ => exact Or.inl (by simp)
  | markup elements closingTag => exact Or.inl (List.suffix_refl _)
  | report fault _ => exact Or.inl (List.suffix_refl _)
  | deepen depth => exact Or.inl (List.suffix_refl _)
  | say body _ => exact Or.inl (by simp)
  | quote n body _ _ _ => exact Or.inl (by simp)
  | leaveQuoting n body _ _ _ => exact Or.inl (by simpa using htail)
  | split call htop _ => exact become _ (by rw [htop]; rfl)
  | call call angles _ _ => exact Or.inl (by simpa using htail)
  | comment n _ => exact Or.inr (Or.inl ⟨.comment, by simp⟩)
  | commentEnd _ => exact Or.inl (by simpa using htail)
  | inside k _ _ _ => exact Or.inr (Or.inl ⟨k, rfl⟩)
  | enter k _ _ _ _ => exact Or.inr (Or.inl ⟨k, rfl⟩)
  | leave _ _ => exact Or.inl (by simpa using htail)
  | goOn k hk _ => exact become k hk

section Entered

variable {k : Construct} {line : Nat} {below : List Frame}

/-- What stands behind a turn stood before, or is begun on the current line. -/
theorem Turn.stands {s t : State} (h : Turn s t) (ht : Stands k line below t) :
    Stands k line below s ∨ line = s.line := by
  obtain ⟨k', hk', hsuffix⟩ := ht
  rcases h.stack with hstack | ⟨entered, hstack⟩ | ⟨frame, current, rest, hs, hstack, hbegun⟩
  · exact Or.inl ⟨k', hk', hsuffix.trans hstack⟩
  · rw [hstack] at hsuffix
    rcases List.suffix_cons_iff.mp hsuffix with heq | hsuffix
    · exact Or.inr (congrArg Frame.line (List.cons.inj heq).1)
    · exact Or.inl ⟨k', hk', hsuffix⟩
  · left
    rw [hstack] at hsuffix
    rcases List.suffix_cons_iff.mp hsuffix with heq | hsuffix
    · obtain ⟨hframe, rfl⟩ := List.cons.inj heq
      have hconstruct : k' = current := congrArg Frame.construct hframe
      have hline : line = frame.line := congrArg Frame.line hframe
      refine ⟨frame.construct, ?_, ?_⟩
      · rw [hbegun, ← hconstruct, hk']
      · exact ⟨[], by rw [hs, hline, List.nil_append]⟩
    · exact ⟨k', hk', by rw [hs]; exact hsuffix.trans (List.suffix_cons _ _)⟩

/-- **What stands behind a character stood before it, or is begun on its line.** -/
theorem State.step_stands {s : State} (h : Layered s.stack) (setting : Setting) (c : Char)
    (after : List Char) (ht : Stands k line below (s.step setting c after)) :
    Stands k line below s ∨ line = s.line := by
  have hread : Stands k line below ((s.advance c).readChar setting c after) := by
    unfold step endLine at ht
    split at ht
    · simpa [Stands] using ht
    · exact ht
  have hturns := readChar_turns (s.advance c) (by simp [advance]) h setting c after
  have hkept (t : State) (hturn : Turns (s.advance c) t) : t.line = s.line ∧
      (Stands k line below t → Stands k line below s ∨ line = s.line) := by
    refine ⟨hturn.reading.2.2, ?_⟩
    induction hturn with
    | refl => exact Or.inl
    | tail hfirst hlast ih =>
        intro hstands
        rcases hlast.stands hstands with hstood | hline
        · exact ih hstood
        · exact Or.inr (hline.trans (Turns.reading hfirst).2.2)
  exact (hkept _ hturns).2 hread

/-- In the course of the scan of the source the construct has been entered on that
line: it did not stand before some character of the line and has stood from that
character to the end. -/
def EnteredOn (setting : Setting) (source : List Char) (k : Construct) (line : Nat) : Prop :=
  ∃ (below : List Frame) (read : List Char) (c : Char) (after : List Char),
    source = read ++ c :: after ∧ line = 1 + read.count '
' ∧
    ¬ Stands k line below (State.through setting {} read (c :: after)) ∧
    ∀ taken left, after = taken ++ left →
      Stands k line below (State.through setting {} (read ++ c :: taken) left)

/-- What stands has been entered. -/
theorem enteredOn_of_stands (setting : Setting) (source : List Char)
    (h : Stands k line below (State.through setting {} source [])) :
    EnteredOn setting source k line := by
  -- Going back from the end, the construct has stood for the characters `after`.
  have back (read after : List Char) (hstood : ∀ taken left, after = taken ++ left →
      Stands k line below (State.through setting {} (read ++ taken) left)) :
      EnteredOn setting (read ++ after) k line := by
    induction read using List.reverseRecOn generalizing after with
    | nil =>
        obtain ⟨k', -, hsuffix⟩ := hstood [] after rfl
        exact absurd (List.suffix_nil.mp hsuffix) (by simp)
    | append_singleton read c ih =>
        have hsplit : read ++ [c] ++ after = read ++ c :: after := List.append_cons .. |>.symm
        rw [hsplit]
        by_cases hbefore : Stands k line below (State.through setting {} read (c :: after))
        · apply ih
          intro taken left htaken
          rcases List.append_eq_cons_iff.mp htaken.symm with ⟨rfl, rfl⟩ | ⟨taken, rfl, rfl⟩
          · rwa [List.append_nil]
          · rw [List.append_cons]
            exact hstood taken left rfl
        · have hafter := hstood [] after rfl
          rw [List.append_nil, State.through_snoc] at hafter
          have hlayered : Layered (State.through setting {} read (c :: after)).stack :=
            layered_upheld.through setting layered_start read _
          have hline := (State.step_stands hlayered setting c after hafter).resolve_left hbefore
          rw [State.through_line] at hline
          refine ⟨below, read, c, after, rfl, hline, hbefore, ?_⟩
          intro taken left htaken
          rw [List.append_cons]
          exact hstood taken left htaken
  have hend := back source [] (fun taken left hsplit => by
    obtain ⟨rfl, rfl⟩ := List.append_eq_nil_iff.mp hsplit.symm
    simpa using h)
  rwa [List.append_nil] at hend

/-- The constructs that are open once the rest has been handed out were open at the end
of the input. -/
theorem State.settled_stack (s : State) : s.settled.stack <:+ s.stack := by
  unfold settled
  simp only [settle_stack, flush_stack]
  split
  · rw [endDeclaration_stack]
    exact List.tail_suffix _
  · exact List.suffix_refl _

/-- **The problem at the end of the input** has the line on which its construct has
been entered. -/
theorem unterminated_entered (setting : Setting) (source : List Char)
    (hproblem : ⟨line, .unterminated k⟩ ∈ problems setting source) :
    EnteredOn setting source k line := by
  have hmidway := (timed_settled setting source).midway
  rw [problems_eq, State.finish_reviewed, State.emit_problems] at hproblem
  unfold State.reviewed at hproblem
  split at hproblem
  · rename_i problem hunfinished
    have hsignal : ((State.run setting {} source).settled.signal (.problem problem)).problems =
        (State.run setting {} source).settled.problems ++ [problem] := by
      simp [State.problems, State.signals, State.signal, Signal.problem?]
    rw [hsignal] at hproblem
    rcases List.mem_append.mp hproblem with hearly | hlast
    · exact absurd rfl (hmidway _ hearly k)
    · obtain ⟨frame, hframe, hlike⟩ := Option.map_eq_some_iff.mp hunfinished
      rw [← hlike] at hlast
      obtain ⟨hline, hfault⟩ := Problem.mk.inj (List.mem_singleton.mp hlast)
      obtain rfl : k = frame.construct := Fault.unterminated.inj hfault
      obtain ⟨above, below, hstack⟩ :=
        List.append_of_mem (List.mem_of_find?_eq_some hframe)
      refine enteredOn_of_stands setting source (show Stands _ _ below _ from ?_)
      refine ⟨frame.construct, rfl, ?_⟩
      rw [hline, ← State.run_eq_through]
      have hsuffix : frame :: below <:+ (State.run setting {} source).settled.stack := by
        rw [hstack]
        exact List.suffix_append _ _
      exact hsuffix.trans (State.settled_stack _)
  · exact absurd rfl (hmidway _ hproblem k)

end Entered

end Templating.Scan
