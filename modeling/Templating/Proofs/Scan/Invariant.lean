import Templating.Proofs.Scan.Deed

/-!
# Invariants of a scan

What holds at the start of a scan and is kept by every move, by reading a
character and by the ends of lines and declarations holds at every moment of
it. `State.through` is the state at such a moment: some of the source has been
read, the rest is still to come.
-/

namespace Templating.Scan

namespace State

/-- The state after taking `read`, which `after` follows. -/
def through (setting : Setting) (s : State) : List Char → List Char → State
  | [], _ => s
  | c :: cs, after => (s.step setting c (cs ++ after)).through setting cs after

theorem run_append (setting : Setting) (s : State) (read after : List Char) :
    run setting s (read ++ after) = run setting (s.through setting read after) after := by
  induction read generalizing s with
  | nil => rfl
  | cons c cs ih =>
      rw [List.cons_append, run, ih]
      rfl

theorem through_snoc (setting : Setting) (s : State) (read : List Char) (c : Char)
    (after : List Char) : s.through setting (read ++ [c]) after =
      (s.through setting read (c :: after)).step setting c after := by
  induction read generalizing s with
  | nil => rfl
  | cons d read ih =>
      rw [List.cons_append, through, ih]
      simp [through]

theorem through_append (setting : Setting) (s : State) (read more after : List Char) :
    s.through setting (read ++ more) after =
      (s.through setting read (more ++ after)).through setting more after := by
  induction read generalizing s with
  | nil => rfl
  | cons c read ih =>
      rw [List.cons_append, through, ih, List.append_assoc]
      rfl

theorem run_eq_through (setting : Setting) (s : State) (source : List Char) :
    run setting s source = s.through setting source [] := by
  have h := run_append setting s source []
  rw [List.append_nil] at h
  exact h

/-- A property that every step keeps holds all the way. -/
theorem through_preserves {setting : Setting} {P : State → Prop}
    (hstep : ∀ s c after, P s → P (s.step setting c after)) {s : State} (hs : P s)
    (read after : List Char) : P (s.through setting read after) := by
  induction read generalizing s with
  | nil => exact hs
  | cons c cs ih => exact ih (hstep s c _ hs)

/-- The state at the end of the input, before the last event is said. -/
def settled (s : State) : State :=
  let s := if s.top = .imported ∨ s.top = .param then s.endDeclaration 0 else s
  (s.flush 0).settle

/-- The problem at the end of the input: the innermost construct that is still
open. -/
def unfinished? (s : State) : Option Problem :=
  (s.stack.find? fun frame => frame.construct != .text).map
    fun frame => ⟨frame.line, .unterminated frame.construct⟩

theorem finish_eq (s : State) : s.finish =
    match s.settled.unfinished? with
    | some problem => (s.settled.signal (.problem problem)).emit .complete
    | none => s.settled.emit .complete := by
  unfold finish unfinished? settled
  simp only
  cases ((((if s.top = .imported ∨ s.top = .param then s.endDeclaration 0 else s).flush
    0).settle).stack.find? fun frame => frame.construct != .text) <;> rfl

/-- The state behind the last problem, before `complete` is said. -/
def reviewed (s : State) : State :=
  match s.settled.unfinished? with
  | some problem => s.settled.signal (.problem problem)
  | none => s.settled

theorem finish_reviewed (s : State) : s.finish = s.reviewed.emit .complete := by
  rw [finish_eq]
  unfold reviewed
  cases s.settled.unfinished? <;> rfl

end State

open State

/-- The property `P` of the states of a scan is kept by whatever the scan
does. -/
structure Invariant (P : State → Prop) : Prop where
  advance : ∀ (s : State) (c : Char), P s → P (s.advance c)
  move : ∀ {s t : State}, Move s t → P s → P t
  declaration : ∀ (s : State) (width : Nat), s.top.isDeclaration = true → P s →
    P (s.endDeclaration width)
  newline : ∀ s : State, P s → P { s.emit .lineEnd with line := s.line + 1 }
  problem : ∀ (s : State) (p : Problem), P s → P (s.signal (.problem p))

namespace Invariant

variable {P : State → Prop} (hP : Invariant P) {s : State}

include hP

theorem moves {t : State} (h : Moves s t) (hs : P s) : P t :=
  h.preserves hP.move hs

theorem readChar (setting : Setting) (c : Char) (after : List Char) (hs : P s) :
    P (s.readChar setting c after) := by
  by_cases hd : s.top.isDeclaration = true
  · rw [readChar_declaration s setting c after hd]
    split
    · exact hP.declaration s 1 hd hs
    · exact hs
  · exact hP.moves (readChar_moves s setting c after (by simpa using hd)) hs

theorem step (setting : Setting) (c : Char) (after : List Char) (hs : P s) :
    P (s.step setting c after) := by
  have hread : P ((s.advance c).readChar setting c after) :=
    hP.readChar setting c after (hP.advance s c hs)
  unfold State.step endLine
  split
  · exact hP.newline _ hread
  · exact hread

theorem through (setting : Setting) (hs : P s) (read after : List Char) :
    P (s.through setting read after) :=
  through_preserves (fun _ c rest h => hP.step setting c rest h) hs read after

theorem run (setting : Setting) (hs : P s) (source : List Char) :
    P (State.run setting s source) := by
  rw [run_eq_through]
  exact hP.through setting hs source []

theorem settled (hs : P s) : P s.settled := by
  have hdeclared : P (if s.top = .imported ∨ s.top = .param then s.endDeclaration 0 else s) := by
    split
    · rename_i h
      exact hP.declaration s 0 (by rcases h with h | h <;> rw [h] <;> rfl) hs
    · exact hs
  exact hP.moves (moves_flush_settle _ 0) hdeclared

theorem finish (hs : P s) : P s.finish := by
  rw [finish_eq]
  split
  · exact hP.move (.say _ .complete rfl nofun) (hP.problem _ _ (hP.settled hs))
  · exact hP.move (.say _ .complete rfl nofun) (hP.settled hs)

/-- An invariant that holds at the start holds once everything has been
said. -/
theorem scanned (setting : Setting) (h : P {}) (source : List Char) :
    P (State.run setting {} source).finish :=
  hP.finish (hP.run setting h source)

end Invariant

/-! ## What is said in the end -/

theorem events_eq (setting : Setting) (source : List Char) :
    events setting source = (State.run setting {} source).finish.events := rfl

theorem problems_eq (setting : Setting) (source : List Char) :
    problems setting source = (State.run setting {} source).finish.problems := rfl

end Templating.Scan
