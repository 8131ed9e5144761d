import Templating.Proofs.Scan.Invariant

/-!
# The header of a template

A template begins with its declarations, and the end of this header is an event
of its own. Every template has it, if only before its last event: what comes
before are declarations and ends of lines, and behind it nothing is declared any
more. So whoever takes the events one after the other knows all
parameters of a template before the first call in it.
-/

namespace Templating.Scan

/-- The event declares something or ends a line. -/
def OfHeader (e : Event) : Prop :=
  e.body.isHeader = true ∧ e.body ≠ .headerEnd

/-- The event neither ends the header nor declares anything. -/
def OfContent (e : Event) : Prop :=
  e.body ≠ .headerEnd ∧ (∀ declaration param, e.body ≠ .param declaration param) ∧
    ∀ path, e.body ≠ .imported path

/-- The events have a header, its end, and content behind it. -/
def HasHeader (es : List Event) : Prop :=
  ∃ header e content, es = header ++ e :: content ∧ e.body = .headerEnd ∧
    (∀ x ∈ header, OfHeader x) ∧ ∀ x ∈ content, OfContent x

theorem ofContent_of_not_header {e : Event} (h : e.body.isHeader = false) : OfContent e := by
  refine ⟨?_, ?_, ?_⟩
  · intro hbody
    rw [hbody] at h
    cases h
  · intro declaration param hbody
    rw [hbody] at h
    cases h
  · intro path hbody
    rw [hbody] at h
    cases h

theorem HasHeader.snoc {es : List Event} (h : HasHeader es) {e : Event} (he : OfContent e) :
    HasHeader (es ++ [e]) := by
  obtain ⟨header, x, content, rfl, hx, hheader, hcontent⟩ := h
  refine ⟨header, x, content ++ [e], by simp, hx, hheader, ?_⟩
  intro y hy
  rcases List.mem_append.mp hy with hy | hy
  · exact hcontent y hy
  · rw [List.mem_singleton.mp hy]
    exact he

/-! ## The header in the course of a scan -/

/-- As long as the header goes on, everything said belongs to it. -/
structure InHeader (s : State) : Prop where
  before : s.headerOver = false → ∀ e ∈ s.events, OfHeader e
  behind : s.headerOver = true → HasHeader s.events

namespace InHeader

variable {s t : State}

theorem congr (h : InHeader s) (hover : t.headerOver = s.headerOver)
    (hevents : t.events = s.events) : InHeader t := by
  constructor
  · rw [hover, hevents]
    exact h.before
  · rw [hover, hevents]
    exact h.behind

/-- Content ends the header, if that has not happened. -/
theorem emit_content (h : InHeader s) {body : Event.Body} (hbody : body.isHeader = false) :
    InHeader (s.emit body) := by
  constructor
  · intro hover
    simp [hbody] at hover
  · intro _
    rw [State.emit_events]
    unfold State.announcement
    cases hover : s.headerOver with
    | true =>
        simp only [Bool.true_or, if_true]
        exact (h.behind hover).snoc (ofContent_of_not_header hbody)
    | false =>
        simp only [hbody, Bool.or_self, Bool.false_eq_true, if_false]
        refine ⟨s.events, ⟨s.line, s.depth, .headerEnd⟩, [⟨s.line, s.depth, body⟩], rfl, rfl,
          h.before hover, ?_⟩
        intro x hx
        rw [List.mem_singleton.mp hx]
        exact ofContent_of_not_header hbody

/-- A declaration belongs to the header as long as that goes on. -/
theorem emit_declaration (h : InHeader s) {body : Event.Body} (hbody : body.isHeader = true)
    (hend : body ≠ .headerEnd)
    (hcontent : s.headerOver = true → body = .lineEnd) :
    InHeader (s.emit body) := by
  have hevents : (s.emit body).events = s.events ++ [⟨s.line, s.depth, body⟩] := by
    rw [State.emit_events]
    simp [State.announcement, hbody]
  have hover : (s.emit body).headerOver = s.headerOver := by simp [hbody]
  constructor
  · rw [hover, hevents]
    intro hbefore e he
    rcases List.mem_append.mp he with he | he
    · exact h.before hbefore e he
    · rw [List.mem_singleton.mp he]
      exact ⟨hbody, hend⟩
  · rw [hover, hevents]
    intro hbehind
    refine (h.behind hbehind).snoc ?_
    rw [hcontent hbehind]
    exact ⟨by simp, by simp, by simp⟩

theorem pop (h : InHeader s) : InHeader s.pop := by
  apply h.congr
  · unfold State.pop
    cases s.stack <;> rfl
  · simp

theorem become (h : InHeader s) (k : Construct) : InHeader (s.become k) := by
  apply h.congr
  · unfold State.become
    cases s.stack <;> rfl
  · simp

theorem not_header_of_isNeutral {body : Event.Body} (h : body.isNeutral = true) :
    body.isHeader = false := by
  cases body <;> first | rfl | exact absurd h (by simp [Event.Body.isNeutral])

theorem move (hm : Move s t) (h : InHeader s) : InHeader t := by
  cases hm with
  | keep n => exact h.congr rfl rfl
  | markup elements closingTag => exact h.congr rfl rfl
  | report fault => exact h.congr rfl (State.report_events s fault)
  | say body hbody _ => exact h.emit_content (not_header_of_isNeutral hbody)
  | enter k _ _ _ => exact h.congr rfl rfl
  | leave _ => exact h.pop
  | become k _ _ _ => exact h.become k
  | header body hs =>
      have hbody : body.isHeader = false := by
        generalize s.top = k at hs
        cases hs <;> rfl
      exact (h.emit_content hbody).congr rfl rfl
  | otherwise _ => exact (h.pop.emit_content rfl).congr rfl rfl
  | elseIf _ => exact h.pop.pop.congr rfl rfl
  | endBlock sort body hb _ =>
      have hbody : body.isHeader = false := by
        cases hb <;> rfl
      exact (h.pop.emit_content hbody).pop
  | layoutBegin call angles reference arguments _ =>
      exact (h.pop.emit_content rfl).congr rfl rfl
  | layoutEnd _ => exact h.pop.emit_content rfl
  | slotEnter _ => exact h.congr rfl rfl
  | slotBegin name _ => exact (h.emit_content rfl).congr rfl rfl
  | slotEnd _ =>
      have hpop : InHeader { s.pop.pop with depth := s.pop.pop.depth - 2 } :=
        h.pop.pop.congr rfl rfl
      exact hpop.emit_content rfl

theorem endDeclaration (h : InHeader s) (width : Nat) : InHeader (s.endDeclaration width) := by
  have hpop : InHeader s.pop.settle := h.pop.congr rfl rfl
  have hreport (fault : Fault) : InHeader (s.pop.settle.report fault) :=
    hpop.congr rfl (State.report_events _ fault)
  unfold State.endDeclaration
  simp only
  split
  · exact hreport _
  · rename_i hover
    -- A declaration is said only while the header goes on.
    split
    · split
      · rename_i p hp
        exact hpop.emit_declaration rfl (by simp) (fun h => absurd h hover)
      · exact hreport _
    · exact hpop.emit_declaration rfl (by simp) (fun h => absurd h hover)

end InHeader

theorem inHeader_invariant : Invariant InHeader where
  advance _ _ h := h.congr rfl rfl
  move hm h := h.move hm
  declaration _ width _ h := h.endDeclaration width
  newline s h := by
    have hline : InHeader (s.emit .lineEnd) := by
      apply h.emit_declaration rfl
      · simp
      · exact fun _ => rfl
    exact hline.congr rfl rfl
  problem s p h := h.congr rfl (s.signal_problem_events p)

theorem inHeader_start : InHeader {} := by
  constructor
  · intro _ e he
    cases he
  · intro h
    cases h

/-- **Every template has a header**, which ends before any content. -/
theorem events_hasHeader (setting : Setting) (source : List Char) :
    HasHeader (events setting source) := by
  rw [events_eq]
  apply (inHeader_invariant.scanned setting inHeader_start source).behind
  rw [State.finish_eq]
  split <;> simp [Event.Body.isHeader]

end Templating.Scan
