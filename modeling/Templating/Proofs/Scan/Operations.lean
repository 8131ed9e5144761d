import Templating.Scan

/-!
# What the operations of a scan change

A scan is put together from a few operations on its state: begin and end a
construct, say something, let go of pending text. Each of them changes a few
fields and leaves the others alone. These equations say which, so that later
proofs need not open the operations again.
-/

namespace Templating.Scan

/-- Inside the construct directives are looked for. -/
def Construct.readsText : Construct → Bool
  | text | condition | conditionElseIf | loop | layoutBody | slot | render => true
  | _ => false

namespace State

variable (s : State) (c : Char) (k : Construct) (n : Nat) (body : Event.Body)

/-- What has been said so far, in order. -/
def signals : List Signal :=
  s.said.reverse

/-- The events among it. -/
def events : List Event :=
  s.signals.filterMap Signal.event?

/-- The problems among it. -/
def problems : List Problem :=
  s.signals.filterMap Signal.problem?

/-! ## Saying something -/

/-- The events that `emit` says: the end of the header may come first. -/
def announcement : List Event :=
  if s.headerOver || body.isHeader then [⟨s.line, s.depth, body⟩]
  else [⟨s.line, s.depth, .headerEnd⟩, ⟨s.line, s.depth, body⟩]

theorem emit_eq : s.emit body =
    { s with
      said := (s.announcement body).reverse.map Signal.event ++ s.said
      headerOver := s.headerOver || !body.isHeader } := by
  unfold emit announcement
  cases h : s.headerOver <;> cases h' : body.isHeader <;> simp [signal, h]

@[simp] theorem emit_before : (s.emit body).before = s.before := by rw [emit_eq]
@[simp] theorem emit_pending : (s.emit body).pending = s.pending := by rw [emit_eq]
@[simp] theorem emit_position : (s.emit body).position = s.position := by rw [emit_eq]
@[simp] theorem emit_line : (s.emit body).line = s.line := by rw [emit_eq]
@[simp] theorem emit_depth : (s.emit body).depth = s.depth := by rw [emit_eq]
@[simp] theorem emit_stack : (s.emit body).stack = s.stack := by rw [emit_eq]
@[simp] theorem emit_elements : (s.emit body).elements = s.elements := by rw [emit_eq]

@[simp] theorem emit_headerOver :
    (s.emit body).headerOver = (s.headerOver || !body.isHeader) := by
  rw [emit_eq]

@[simp] theorem emit_top : (s.emit body).top = s.top := by
  unfold top
  rw [emit_stack]

@[simp] theorem emit_slice : (s.emit body).slice n = s.slice n := by
  unfold slice
  simp

theorem emit_events : (s.emit body).events = s.events ++ s.announcement body := by
  rw [emit_eq]
  simp [events, signals, Function.comp_def, Signal.event?]

/-- Every event is of a kind if those before are, and the end of the header and
what is said are of it too. -/
theorem forall_emit {P : Event.Body → Prop} (h : ∀ e ∈ s.events, P e.body)
    (hheader : P .headerEnd) {body : Event.Body} (hbody : P body) :
    ∀ e ∈ (s.emit body).events, P e.body := by
  intro e he
  rw [emit_events, List.mem_append] at he
  rcases he with he | he
  · exact h e he
  · unfold announcement at he
    split at he
    · rw [List.mem_singleton.mp he]
      exact hbody
    · rcases List.mem_cons.mp he with rfl | he
      · exact hheader
      · rw [List.mem_singleton.mp he]
        exact hbody

theorem emit_signals :
    (s.emit body).signals = s.signals ++ (s.announcement body).map Signal.event := by
  rw [emit_eq]
  simp [signals]

theorem emit_problems : (s.emit body).problems = s.problems := by
  rw [emit_eq]
  simp [problems, signals, Function.comp_def, Signal.problem?]

@[simp] theorem report_stack (fault : Fault) : (s.report fault).stack = s.stack := rfl
@[simp] theorem report_depth (fault : Fault) : (s.report fault).depth = s.depth := rfl
@[simp] theorem report_line (fault : Fault) : (s.report fault).line = s.line := rfl
@[simp] theorem report_before (fault : Fault) : (s.report fault).before = s.before := rfl
@[simp] theorem report_pending (fault : Fault) : (s.report fault).pending = s.pending := rfl

theorem signal_problem_events (p : Problem) : (s.signal (.problem p)).events = s.events := by
  simp [events, signals, signal, Signal.event?]

theorem report_events (fault : Fault) : (s.report fault).events = s.events :=
  s.signal_problem_events ⟨s.line, fault⟩

theorem report_problems (fault : Fault) :
    (s.report fault).problems = s.problems ++ [⟨s.line, fault⟩] := by
  simp [problems, signals, report, signal, Signal.problem?]

/-! ## The pending text -/

@[simp] theorem advance_stack : (s.advance c).stack = s.stack := rfl
@[simp] theorem advance_top : (s.advance c).top = s.top := rfl
@[simp] theorem advance_depth : (s.advance c).depth = s.depth := rfl
@[simp] theorem advance_line : (s.advance c).line = s.line := rfl
@[simp] theorem advance_events : (s.advance c).events = s.events := rfl

theorem advance_previous? : (s.advance c).previous? = s.before.head? := by
  unfold previous? advance
  cases s.before <;> rfl

@[simp] theorem keep_stack : (s.keep n).stack = s.stack := rfl
@[simp] theorem keep_top : (s.keep n).top = s.top := rfl
@[simp] theorem keep_depth : (s.keep n).depth = s.depth := rfl
@[simp] theorem keep_line : (s.keep n).line = s.line := rfl
@[simp] theorem keep_before : (s.keep n).before = s.before := rfl
@[simp] theorem keep_elements : (s.keep n).elements = s.elements := rfl
@[simp] theorem keep_events : (s.keep n).events = s.events := rfl
@[simp] theorem settle_stack : s.settle.stack = s.stack := rfl
@[simp] theorem settle_top : s.settle.top = s.top := rfl
@[simp] theorem settle_depth : s.settle.depth = s.depth := rfl
@[simp] theorem settle_line : s.settle.line = s.line := rfl
@[simp] theorem settle_events : s.settle.events = s.events := rfl
@[simp] theorem settle_pending : s.settle.pending = [] := by simp [settle, keep]

/-- Handing out pending text is saying it, or nothing. -/
theorem flush_eq : s.flush n = s ∨ s.flush n = s.emit (.text (s.slice n)) := by
  unfold flush
  split
  · exact Or.inr rfl
  · exact Or.inl rfl

@[simp] theorem flush_stack : (s.flush n).stack = s.stack := by
  rcases flush_eq s n with h | h <;> simp [h]

@[simp] theorem flush_depth : (s.flush n).depth = s.depth := by
  rcases flush_eq s n with h | h <;> simp [h]

@[simp] theorem flush_line : (s.flush n).line = s.line := by
  rcases flush_eq s n with h | h <;> simp [h]

@[simp] theorem flush_top : (s.flush n).top = s.top := by
  rcases flush_eq s n with h | h <;> simp [h]

@[simp] theorem flush_before : (s.flush n).before = s.before := by
  rcases flush_eq s n with h | h <;> simp [h]

@[simp] theorem flush_pending : (s.flush n).pending = s.pending := by
  rcases flush_eq s n with h | h <;> simp [h]

@[simp] theorem flush_position : (s.flush n).position = s.position := by
  rcases flush_eq s n with h | h <;> simp [h]

@[simp] theorem flush_elements : (s.flush n).elements = s.elements := by
  rcases flush_eq s n with h | h <;> simp [h]

theorem flush_problems : (s.flush n).problems = s.problems := by
  rcases flush_eq s n with h | h <;> simp [h, emit_problems]

/-! ## The stack -/

@[simp] theorem push_stack : (s.push k).stack = ⟨k, s.line⟩ :: s.stack := rfl
@[simp] theorem push_line : (s.push k).line = s.line := rfl
@[simp] theorem push_events : (s.push k).events = s.events := rfl
@[simp] theorem push_pending : (s.push k).pending = s.pending := rfl

@[simp] theorem pop_stack : s.pop.stack = s.stack.tail := by
  unfold pop
  cases h : s.stack <;> simp [h]

@[simp] theorem pop_line : s.pop.line = s.line := by
  unfold pop
  cases s.stack <;> rfl

@[simp] theorem pop_events : s.pop.events = s.events := by
  unfold pop
  cases s.stack <;> rfl

@[simp] theorem pop_signals : s.pop.signals = s.signals := by
  unfold pop
  cases s.stack <;> rfl

@[simp] theorem pop_pending : s.pop.pending = s.pending := by
  unfold pop
  cases s.stack <;> rfl

@[simp] theorem pop_before : s.pop.before = s.before := by
  unfold pop
  cases s.stack <;> rfl

@[simp] theorem pop_position : s.pop.position = s.position := by
  unfold pop
  cases s.stack <;> rfl

theorem pop_depth : s.pop.depth = if s.stack = [] ∨ s.top ≠ .text then s.depth
    else s.depth - 1 := by
  unfold pop top
  cases h : s.stack with
  | nil => simp
  | cons frame rest => by_cases ht : frame.construct = .text <;> simp [ht]

@[simp] theorem become_line : (s.become k).line = s.line := by
  unfold become
  cases s.stack <;> rfl

@[simp] theorem become_depth : (s.become k).depth = s.depth := by
  unfold become
  cases s.stack <;> rfl

@[simp] theorem become_events : (s.become k).events = s.events := by
  unfold become
  cases s.stack <;> rfl

@[simp] theorem become_signals : (s.become k).signals = s.signals := by
  unfold become
  cases s.stack <;> rfl

@[simp] theorem become_pending : (s.become k).pending = s.pending := by
  unfold become
  cases s.stack <;> rfl

@[simp] theorem become_before : (s.become k).before = s.before := by
  unfold become
  cases s.stack <;> rfl

@[simp] theorem become_position : (s.become k).position = s.position := by
  unfold become
  cases s.stack <;> rfl

theorem top_of_stack {s t : State} (h : t.stack = s.stack) : t.top = s.top := by
  unfold top
  rw [h]

theorem inTextOf_of_stack {s t : State} (h : t.stack = s.stack) (sort : Construct → Bool) :
    t.inTextOf sort = s.inTextOf sort := by
  unfold inTextOf
  rw [h]

/-- A construct that is not text is on the stack when it is innermost. -/
theorem stack_of_top {s : State} {k : Construct} (h : s.top = k) (hk : k ≠ .text) :
    ∃ frame rest, s.stack = frame :: rest ∧ frame.construct = k := by
  unfold top at h
  cases hs : s.stack with
  | nil =>
      rw [hs] at h
      exact absurd h.symm hk
  | cons frame rest =>
      rw [hs] at h
      exact ⟨frame, rest, rfl, h⟩

/-- The construct of a declaration ends with it. -/
theorem endDeclaration_stack : (s.endDeclaration n).stack = s.stack.tail := by
  unfold endDeclaration
  simp only
  repeat' split
  all_goals simp

/-! ## Operations that do not get in each other's way -/

theorem pop_settle : s.pop.settle = s.settle.pop := by
  unfold pop settle keep
  cases h : s.stack <;> simp [h]

theorem emit_settle : (s.emit body).settle = s.settle.emit body := by
  rw [emit_eq, emit_eq]
  rfl

/-- The current text lies directly inside a construct of a sort when the two
innermost frames say so. -/
theorem inTextOf_eq_true {sort : Construct → Bool} (h : s.inTextOf sort = true) :
    ∃ t opener rest, s.stack = t :: opener :: rest ∧ t.construct = .text ∧
      sort opener.construct = true := by
  unfold inTextOf at h
  split at h
  · rename_i frame opener rest hs
    simp only [Bool.and_eq_true, beq_iff_eq] at h
    exact ⟨frame, opener, rest, hs, h.1, h.2⟩
  · exact absurd h (by simp)

theorem inTextOf_eq_false (h : s.top ≠ .text) (sort : Construct → Bool) :
    s.inTextOf sort = false := by
  unfold inTextOf
  unfold top at h
  split
  · rename_i frame opener rest hstack
    rw [hstack] at h
    simp [h]
  · rfl

/-- Outside text nothing is handed out. -/
theorem flush_of_top_ne_text (h : s.top ≠ .text) : s.flush n = s := by
  unfold flush
  exact if_neg fun htext => h htext.1

/-! ## Reading a character -/

/-- The end of a line leaves the stack alone. -/
theorem step_stack (setting : Setting) (after : List Char) :
    (s.step setting c after).stack = ((s.advance c).readChar setting c after).stack := by
  unfold step endLine
  split <;> simp

theorem readChar_readsText (s : State) (setting : Setting) (c : Char) (after : List Char)
    (h : s.top.readsText = true) : s.readChar setting c after = s.readText setting c after := by
  unfold State.readChar
  cases ht : s.top <;> simp_all [Construct.readsText]

end State

end Templating.Scan
