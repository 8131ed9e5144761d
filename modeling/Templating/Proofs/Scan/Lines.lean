import Templating.Proofs.Param.Declaration
import Templating.Proofs.Scan.Invariant
import Templating.Proofs.Text.Everywhere
import Templating.Proofs.Text.Lines

/-!
# Lines of a scan

The scanner counts lines, and every newline is an event of its own. So the line
of an event is found by counting the ends of lines said before it, and the
ends of lines are as many as the newlines of the source. Declarations end with
their line: nothing that an event of the header quotes has a newline in it.
-/

namespace Templating.Scan

/-! ## What a move says -/

/-- Said while a character is read, and no declaration. -/
def spoken : Event.Body → Bool
  | .lineEnd | .imported _ | .param .. => false
  | _ => true

theorem spoken_of_isNeutral {body : Event.Body} (h : body.isNeutral = true) :
    spoken body = true := by
  cases body <;> first | rfl | exact absurd h (by simp [Event.Body.isNeutral])

/-- **A move says at most one thing**, on the line it is made on, and nothing that
belongs to a text outside of one. -/
theorem Move.speaks {s t : State} (h : Move s t) : t.line = s.line ∧ (t.events = s.events ∨
    ∃ (u : State) (body : Event.Body), u.line = s.line ∧ u.events = s.events ∧
      spoken body = true ∧ (body.isInline = true → s.top = .text) ∧
      t.events = (u.emit body).events) := by
  cases h with
  | keep n => exact ⟨rfl, Or.inl rfl⟩
  | markup elements closingTag => exact ⟨rfl, Or.inl rfl⟩
  | report fault => exact ⟨rfl, Or.inl (State.report_events s fault)⟩
  | say body hbody htext =>
      exact ⟨by simp, Or.inr ⟨s, body, rfl, rfl, spoken_of_isNeutral hbody, htext, rfl⟩⟩
  | enter k _ _ _ => exact ⟨rfl, Or.inl rfl⟩
  | leave _ => exact ⟨by simp, Or.inl (by simp)⟩
  | become k _ _ _ => exact ⟨by simp, Or.inl (by simp)⟩
  | header body hs =>
      obtain ⟨hbody, hinline⟩ : spoken body = true ∧ body.isInline = false := by
        generalize s.top = k at hs
        cases hs <;> exact ⟨rfl, rfl⟩
      exact ⟨by simp, Or.inr ⟨s, body, rfl, rfl, hbody, by simp [hinline], rfl⟩⟩
  | otherwise _ =>
      exact ⟨by simp, Or.inr ⟨s.pop, .conditionElse, by simp, by simp, rfl, nofun, rfl⟩⟩
  | elseIf _ => exact ⟨by simp, Or.inl (by simp)⟩
  | endBlock sort body hb _ =>
      obtain ⟨hbody, hinline⟩ : spoken body = true ∧ body.isInline = false := by
        cases hb <;> exact ⟨rfl, rfl⟩
      exact ⟨by simp, Or.inr ⟨s.pop, body, by simp, by simp, hbody, by simp [hinline], by simp⟩⟩
  | layoutBegin call angles reference arguments _ =>
      exact ⟨by simp, Or.inr ⟨s.pop, .call .layout reference arguments, by simp, by simp, rfl,
        nofun, rfl⟩⟩
  | layoutEnd _ =>
      exact ⟨by simp, Or.inr ⟨s.pop, .layoutEnd, by simp, by simp, rfl, nofun, rfl⟩⟩
  | slotEnter _ => exact ⟨rfl, Or.inl rfl⟩
  | slotBegin name _ =>
      exact ⟨by simp, Or.inr ⟨s, .slotBegin name, rfl, rfl, rfl, nofun, rfl⟩⟩
  | slotEnd _ =>
      exact ⟨by simp, Or.inr ⟨{ s.pop.pop with depth := s.pop.pop.depth - 2 }, .slotEnd,
        by simp, by show s.pop.pop.events = s.events; simp, rfl, nofun, rfl⟩⟩

/-- A declaration says what it declares, on its own line, or reports what is
wrong with it. -/
theorem State.endDeclaration_speaks (s : State) (width : Nat) :
    (s.endDeclaration width).line = s.line ∧
      ((s.endDeclaration width).events = s.events ∨
        ∃ body, (s.endDeclaration width).events = (s.pop.settle.emit body).events ∧
          (body = .imported (s.slice width).trim ∨
            ∃ p, Param.ofDeclaration (s.slice width).trim.text = .ok p ∧
              body = .param (s.slice width).trim p)) := by
  have hreport (fault : Fault) : (s.pop.settle.report fault).line = s.line ∧
      (s.pop.settle.report fault).events = s.events := by
    rw [State.report_events]
    exact ⟨by simp, by show s.pop.events = s.events; simp⟩
  unfold State.endDeclaration
  simp only
  split
  · exact ⟨(hreport _).1, Or.inl (hreport _).2⟩
  · split
    · split
      · rename_i p hp
        exact ⟨by simp, Or.inr ⟨_, rfl, Or.inr ⟨p, hp, rfl⟩⟩⟩
      · exact ⟨(hreport _).1, Or.inl (hreport _).2⟩
    · exact ⟨by simp, Or.inr ⟨_, rfl, Or.inl rfl⟩⟩

/-! ## The current line -/

theorem State.moves_line {s t : State} (h : Moves s t) : t.line = s.line := by
  induction h with
  | refl => rfl
  | tail _ hst ih => exact hst.speaks.1.trans ih

theorem State.readChar_line (s : State) (setting : Setting) (c : Char) (after : List Char) :
    (s.readChar setting c after).line = s.line := by
  by_cases hd : s.top.isDeclaration = true
  · rw [readChar_declaration s setting c after hd]
    split
    · exact (s.endDeclaration_speaks 1).1
    · rfl
  · exact moves_line (readChar_moves s setting c after (by simpa using hd))

theorem State.step_line (s : State) (setting : Setting) (c : Char) (after : List Char) :
    (s.step setting c after).line = s.line + [c].count '\n' := by
  have hread := (s.advance c).readChar_line setting c after
  unfold State.step State.endLine
  split
  · rename_i hc
    subst hc
    simpa using hread
  · rename_i hc
    rw [List.count_singleton, if_neg (by simpa using hc)]
    exact hread

/-- The scanner is on the line that its place in the source has. -/
theorem State.through_line (setting : Setting) (s : State) (read after : List Char) :
    (s.through setting read after).line = s.line + read.count '\n' := by
  induction read generalizing s with
  | nil => rfl
  | cons c cs ih =>
      rw [State.through, ih, State.step_line, Nat.add_assoc, ← List.count_append]
      rfl

/-! ## Numbering by ends of lines -/

/-- How many lines end in a stream. -/
def lineEnds (es : List Event) : Nat :=
  es.countP fun e => e.body == .lineEnd

/-- Every event is on the line that the ends of lines before it count, from line
`n` on. -/
def NumberedFrom (n : Nat) (es : List Event) : Prop :=
  ∀ before e after, es = before ++ e :: after → e.line = n + lineEnds before

theorem lineEnds_append (es fs : List Event) :
    lineEnds (es ++ fs) = lineEnds es + lineEnds fs := by
  unfold lineEnds
  exact List.countP_append

theorem NumberedFrom.snoc {n : Nat} {es : List Event} (h : NumberedFrom n es) {e : Event}
    (he : e.line = n + lineEnds es) : NumberedFrom n (es ++ [e]) :=
  everywhere_snoc.mpr ⟨h, he⟩

theorem NumberedFrom.head {n : Nat} {e : Event} {es : List Event} (h : NumberedFrom n (e :: es)) :
    e.line = n :=
  h [] e es rfl

theorem NumberedFrom.tail {n : Nat} {e : Event} {es : List Event} (h : NumberedFrom n (e :: es)) :
    NumberedFrom (n + lineEnds [e]) es := by
  intro before x after hes
  have := h (e :: before) x after (by rw [hes]; rfl)
  rwa [← List.singleton_append, lineEnds_append, ← Nat.add_assoc] at this

/-- The events are numbered, and the scanner counts on. -/
structure Counted (s : State) : Prop where
  line : s.line = 1 + lineEnds s.events
  numbered : NumberedFrom 1 s.events

namespace Counted

variable {s t : State}

theorem congr (h : Counted s) (hline : t.line = s.line) (hevents : t.events = s.events) :
    Counted t :=
  ⟨by rw [hline, hevents]; exact h.line, by rw [hevents]; exact h.numbered⟩

/-- What is said takes the current line; the count goes on if it is no end of a
line. -/
theorem emit (h : Counted s) (body : Event.Body) :
    NumberedFrom 1 (s.emit body).events ∧
      lineEnds (s.emit body).events = lineEnds s.events + lineEnds [⟨s.line, s.depth, body⟩] := by
  rw [State.emit_events]
  unfold State.announcement
  split
  · exact ⟨h.numbered.snoc h.line, lineEnds_append _ _⟩
  · have hheader : NumberedFrom 1 (s.events ++ [⟨s.line, s.depth, .headerEnd⟩]) :=
      h.numbered.snoc h.line
    have hcount : lineEnds (s.events ++ [⟨s.line, s.depth, .headerEnd⟩]) = lineEnds s.events :=
      lineEnds_append _ _
    rw [List.append_cons]
    refine ⟨hheader.snoc ?_, ?_⟩
    · rw [hcount]
      exact h.line
    · rw [lineEnds_append, hcount]

theorem emit_other (h : Counted s) {body : Event.Body} (hbody : body ≠ .lineEnd) :
    Counted (s.emit body) := by
  obtain ⟨hnumbered, hcount⟩ := h.emit body
  refine ⟨?_, hnumbered⟩
  rw [State.emit_line, hcount, h.line]
  simp [lineEnds, hbody]

theorem move (hm : Move s t) (h : Counted s) : Counted t := by
  obtain ⟨hline, hevents | ⟨u, body, huline, huevents, hbody, -, hevents⟩⟩ := hm.speaks
  · exact h.congr hline hevents
  · have hu : Counted u := h.congr huline huevents
    have hbody' : body ≠ .lineEnd := by
      rintro rfl
      exact absurd hbody (by decide)
    exact (hu.emit_other hbody').congr (by rw [hline, State.emit_line, huline]) hevents

theorem endDeclaration (h : Counted s) (width : Nat) : Counted (s.endDeclaration width) := by
  obtain ⟨hline, hevents | ⟨body, hevents, hbody⟩⟩ := s.endDeclaration_speaks width
  · exact h.congr hline hevents
  · have hpop : Counted s.pop.settle :=
      h.congr (by simp) (by show s.pop.events = s.events; simp)
    have hbody' : body ≠ .lineEnd := by
      rcases hbody with rfl | ⟨p, -, rfl⟩ <;> simp
    exact (hpop.emit_other hbody').congr (by rw [hline]; simp) hevents

theorem newline (h : Counted s) : Counted { s.emit .lineEnd with line := s.line + 1 } := by
  obtain ⟨hnumbered, hcount⟩ := h.emit .lineEnd
  refine ⟨?_, hnumbered⟩
  have hone : lineEnds [⟨s.line, s.depth, .lineEnd⟩] = 1 := by simp [lineEnds]
  show s.line + 1 = 1 + lineEnds (s.emit .lineEnd).events
  rw [hcount, hone, h.line]
  omega

end Counted

theorem counted_invariant : Invariant Counted where
  advance _ _ h := h.congr rfl rfl
  move := Counted.move
  declaration _ width _ h := h.endDeclaration width
  newline _ h := h.newline
  problem s p h := h.congr rfl (s.signal_problem_events p)

theorem counted_start : Counted {} :=
  ⟨rfl, fun before _ _ h => absurd h (by simp [State.events, State.signals])⟩

/-- **Events are numbered by the ends of lines before them**, and the ends of
lines are as many as the newlines of the source. -/
theorem events_numbered (setting : Setting) (source : List Char) :
    NumberedFrom 1 (events setting source) ∧
      lineEnds (events setting source) = source.count '\n' := by
  have hend := counted_invariant.scanned setting counted_start source
  refine ⟨hend.numbered, ?_⟩
  have hline : (State.run setting {} source).finish.line = 1 + source.count '\n' := by
    have hthrough := State.through_line setting {} source []
    rw [← State.run_eq_through] at hthrough
    have hsettled : (State.run setting {} source).settled.line =
        (State.run setting {} source).line := by
      unfold State.settled
      simp only [State.settle_line, State.flush_line]
      split
      · exact (State.endDeclaration_speaks _ 0).1
      · rfl
    rw [State.finish_eq]
    split <;> simpa [State.signal] using hsettled.trans hthrough
  have hcount := hend.line
  rw [hline] at hcount
  rw [events_eq]
  omega

/-! ## Declarations end with their line -/

/-- What the event declares has no newline in it. -/
def Inline : Event.Body → Prop
  | .imported path => Text.Unbroken path.text
  | .param _ p => Text.Unbroken p.name ∧ Text.Unbroken p.type
  | _ => True

/-- A declaration is only ever innermost, is on one line, and what has been
declared was. -/
structure Tidy (s : State) : Prop where
  below : ∀ frame ∈ s.stack.tail, frame.construct.isDeclaration = false
  pending : s.top.isDeclaration = true → '\n' ∉ s.pending
  events : ∀ e ∈ s.events, Inline e.body

namespace Tidy

variable {s t : State}

theorem congr (h : Tidy s) (hstack : t.stack = s.stack) (hpending : t.pending = s.pending)
    (hevents : ∀ e ∈ t.events, Inline e.body) : Tidy t := by
  refine ⟨hstack ▸ h.below, ?_, hevents⟩
  rw [State.top, hstack, hpending]
  exact h.pending

/-- Without a declaration around there is little to keep. -/
theorem outside (hstack : ∀ frame ∈ s.stack, frame.construct.isDeclaration = false)
    (hevents : ∀ e ∈ s.events, Inline e.body) : Tidy s := by
  refine ⟨fun frame hf => hstack frame (List.mem_of_mem_tail hf), fun htop => ?_, hevents⟩
  unfold State.top at htop
  cases hs : s.stack with
  | nil => simp [hs, Construct.isDeclaration] at htop
  | cons frame rest => simp [hs, hstack frame (by simp [hs])] at htop

/-- Inside something that is no declaration there is none around. -/
theorem around (h : Tidy s) (htop : s.top.isDeclaration = false) :
    ∀ frame ∈ s.stack, frame.construct.isDeclaration = false := by
  have hbelow := h.below
  unfold State.top at htop
  cases hs : s.stack with
  | nil => simp
  | cons frame rest =>
      rw [hs] at htop hbelow
      exact List.forall_mem_cons.mpr ⟨htop, hbelow⟩

theorem inline_of_spoken {body : Event.Body} (h : spoken body = true) : Inline body := by
  cases body <;> first | exact trivial | exact absurd h (by simp [spoken])

theorem move (hm : Move s t) (h : Tidy s) : Tidy t := by
  -- No move says a declaration, so the events stay inline whatever the move is.
  have hevents : ∀ e ∈ t.events, Inline e.body := by
    obtain ⟨-, hevents | ⟨u, body, -, huevents, hbody, -, hevents⟩⟩ := hm.speaks
    · rw [hevents]
      exact h.events
    · rw [hevents]
      exact State.forall_emit u (by rw [huevents]; exact h.events) trivial (inline_of_spoken hbody)
  have hpushed (k : Construct) (line : Nat) (hk : k.isDeclaration = false)
      {frames : List Frame} (hframes : ∀ frame ∈ frames, frame.construct.isDeclaration = false) :
      ∀ frame ∈ (⟨k, line⟩ :: frames), frame.construct.isDeclaration = false :=
    List.forall_mem_cons.mpr ⟨hk, hframes⟩
  have htail : ∀ frame ∈ s.stack.tail.tail, frame.construct.isDeclaration = false :=
    fun frame hf => h.below frame (List.mem_of_mem_tail hf)
  -- Only `enter` begins a declaration, and with nothing pending.
  cases hm with
  | keep n =>
      exact ⟨h.below, fun htop hn => h.pending htop (List.mem_of_mem_take hn), hevents⟩
  | markup elements closingTag => exact h.congr rfl rfl hevents
  | report fault => exact h.congr rfl rfl hevents
  | say body _ => exact h.congr (by simp) (by simp) hevents
  | enter k _ htop hk =>
      refine ⟨h.around htop, fun hd => ?_, hevents⟩
      rw [State.push_pending, hk hd]
      simp
  | leave _ => exact outside (by rw [State.pop_stack]; exact h.below) hevents
  | become k _ _ hk =>
      refine outside ?_ hevents
      unfold State.become
      split
      · rename_i hs
        simp [hs]
      · rename_i frame rest hs
        exact hpushed k frame.line hk (by have := h.below; rwa [hs] at this)
  | header body hs =>
      have htop : s.top.isDeclaration = false := by
        generalize s.top = k at hs
        cases hs <;> rfl
      exact outside (hpushed _ _ rfl (by rw [State.emit_stack]; exact h.around htop)) hevents
  | otherwise _ =>
      exact outside (hpushed _ _ rfl (by simpa using h.below)) hevents
  | elseIf _ => exact outside (hpushed _ _ rfl (by simpa using htail)) hevents
  | endBlock sort body _ _ => exact outside (by simpa using htail) hevents
  | layoutBegin call angles reference arguments _ =>
      exact outside (hpushed _ _ rfl (by simpa using h.below)) hevents
  | layoutEnd _ => exact outside (by simpa using h.below) hevents
  | slotEnter htop =>
      exact outside (hpushed _ _ rfl (h.around (by rw [htop]; rfl))) hevents
  | slotBegin name htop =>
      exact outside (hpushed _ _ rfl (by
        rw [State.emit_stack]
        exact h.around (by rw [htop]; rfl))) hevents
  | slotEnd _ =>
      refine outside ?_ hevents
      rw [State.emit_stack]
      show ∀ frame ∈ s.pop.pop.stack, frame.construct.isDeclaration = false
      simpa using htail

/-- A declaration ends: what it declares was pending, but for the newline. -/
theorem endDeclaration (hbelow : ∀ frame ∈ s.stack.tail, frame.construct.isDeclaration = false)
    (hs : ∀ e ∈ s.events, Inline e.body) (width : Nat) (hpending : '\n' ∉ s.pending.drop width) :
    Tidy (s.endDeclaration width) := by
  have htext : Text.Unbroken (s.slice width).trim.text := by
    intro hmem
    rw [Text.Slice.trim, String.toList_ofList] at hmem
    have := Text.mem_of_mem_trim hmem
    rw [State.slice, Text.Slice.endingAt, String.toList_ofList, List.mem_reverse] at this
    exact hpending this
  refine outside (by rw [State.endDeclaration_stack]; exact hbelow) ?_
  obtain ⟨-, hevents | ⟨body, hevents, hbody⟩⟩ := s.endDeclaration_speaks width
  · rw [hevents]
    exact hs
  · have hpop : s.pop.settle.events = s.events := by
      show s.pop.events = s.events
      simp
    rw [hevents]
    refine State.forall_emit s.pop.settle (by rw [hpop]; exact hs) trivial ?_
    rcases hbody with rfl | ⟨p, hp, rfl⟩
    · exact htext
    · exact ⟨fun hc => htext (Param.mem_declaration hp (Or.inl hc)),
        fun hc => htext (Param.mem_declaration hp (Or.inr hc))⟩

theorem step (h : Tidy s) (setting : Setting) (c : Char) (after : List Char) :
    Tidy (s.step setting c after) := by
  have hread : Tidy ((s.advance c).readChar setting c after) := by
    by_cases hd : s.top.isDeclaration = true
    · -- Until its newline a declaration takes up everything.
      have hd' : (s.advance c).top.isDeclaration = true := hd
      rw [State.readChar_declaration _ setting c after hd']
      split
      · exact endDeclaration (s := s.advance c) h.below h.events 1 (h.pending hd)
      · rename_i hc
        refine ⟨h.below, fun _ hmem => ?_, h.events⟩
        rcases List.mem_cons.mp hmem with hmem | hmem
        · exact hc hmem.symm
        · exact h.pending hd hmem
    · have hadvance : Tidy (s.advance c) := ⟨h.below, fun htop => absurd htop hd, h.events⟩
      exact (State.readChar_moves _ setting c after (by simpa using hd)).preserves move hadvance
  unfold State.step State.endLine
  split
  · exact hread.congr (by simp) (by simp) (State.forall_emit _ hread.events trivial trivial)
  · exact hread

theorem settled (h : Tidy s) : Tidy s.settled := by
  have hdeclared : Tidy (if s.top = .imported ∨ s.top = .param then s.endDeclaration 0 else s) := by
    split
    · rename_i htop
      have hd : s.top.isDeclaration = true := by
        rcases htop with htop | htop <;> rw [htop] <;> rfl
      exact endDeclaration h.below h.events 0 (h.pending hd)
    · exact h
  exact (State.moves_flush_settle _ 0).preserves move hdeclared

theorem finish (h : Tidy s) : ∀ e ∈ s.finish.events, Inline e.body := by
  rw [State.finish_eq]
  split
  · rename_i problem _
    have hevents : ∀ e ∈ (s.settled.signal (.problem problem)).events, Inline e.body := by
      rw [State.signal_problem_events]
      exact h.settled.events
    exact State.forall_emit _ hevents trivial trivial
  · exact State.forall_emit _ h.settled.events trivial trivial

end Tidy

/-- **What a template declares has no newline in it.** -/
theorem events_inline (setting : Setting) (source : List Char) :
    ∀ e ∈ events setting source, Inline e.body := by
  have hstart : Tidy {} := by
    refine Tidy.outside (by simp) ?_
    simp [State.events, State.signals]
  have hrun : Tidy (State.run setting {} source) := by
    rw [State.run_eq_through]
    exact State.through_preserves (fun _ c after h => h.step setting c after) hstart source []
  rw [events_eq]
  exact hrun.finish

end Templating.Scan
