import Templating.Proofs.Scan.Framing
import Templating.Proofs.Text.Spans

/-!
# Places that signals come from

A signal comes from a place of the source: the one that is read when it is said, or the
end of the source. Only a construct that is left open is reported for the place where it
was entered. The line that a signal carries is one more than the newlines before its
place, so a report on that line shows the line of the place.
-/

namespace Templating.Scan

/-- The line of an event, or of the diagnostic of a problem. -/
def Signal.line : Signal → Nat
  | event e => e.line
  | problem p => p.diagnostic.line

/-- Something that is left open at the end of the input. -/
def Signal.isUnterminated : Signal → Bool
  | problem ⟨_, .unterminated _⟩ => true
  | _ => false

variable {setting : Setting} {source : List Char} {place : Nat} {x : Signal}

/-! ## What a step says -/

namespace State

/-- From one state to the other things are said on that line, and nothing else. -/
def Says (line : Nat) (s t : State) : Prop :=
  ∃ new, t.signals = s.signals ++ new ∧ ∀ x ∈ new, x.line = line ∧ x.isUnterminated = false

variable {s t u : State} {line : Nat}

theorem Says.trans (h : Says line s t) (h' : Says line t u) : Says line s u := by
  obtain ⟨new, ht, hnew⟩ := h
  obtain ⟨new', hu, hnew'⟩ := h'
  refine ⟨new ++ new', by rw [hu, ht, List.append_assoc], ?_⟩
  exact List.forall_mem_append.mpr ⟨hnew, hnew'⟩

theorem says_of_eq (h : t.signals = s.signals) : Says line s t :=
  ⟨[], by rw [h, List.append_nil], by simp⟩

theorem says_emit (s : State) (body : Event.Body) : Says s.line s (s.emit body) := by
  refine ⟨_, s.emit_signals body, ?_⟩
  unfold announcement
  split <;> simp [Signal.line, Signal.isUnterminated]

end State

/-- **What is said in a turn is on its line.** -/
theorem Turn.says_line {s t : State} (h : Turn s t) : State.Says s.line s t := by
  rcases h.says with hsignals | ⟨u, body, huline, husignals, -, hsignals⟩ |
    ⟨fault, hfault, hsignals⟩
  · exact State.says_of_eq hsignals
  · obtain ⟨new, hnew, hline⟩ := u.says_emit body
    exact ⟨new, by rw [hsignals, hnew, husignals], huline ▸ hline⟩
  · refine ⟨_, hsignals, ?_⟩
    rintro x hx
    rw [List.mem_singleton.mp hx]
    refine ⟨rfl, ?_⟩
    cases fault with
    | unterminated k => exact absurd rfl (hfault k)
    | _ => rfl

theorem Turns.says_line {s t : State} (h : Turns s t) : State.Says s.line s t := by
  induction h with
  | refl => exact State.says_of_eq rfl
  | tail hturns hturn ih =>
      have hlast := hturn.says_line
      rw [(Turns.reading hturns).2.2] at hlast
      exact ih.trans hlast

namespace State

/-- **What is said in a step is on the line of the character.** The newline itself still
belongs to the line that it ends. -/
theorem step_says {s : State} (h : Layered s.stack) (setting : Setting) (c : Char)
    (after : List Char) : Says s.line s (s.step setting c after) := by
  have hturns := readChar_turns (s.advance c) (by simp [advance]) h setting c after
  have hread : Says s.line s ((s.advance c).readChar setting c after) := hturns.says_line
  unfold step endLine
  split
  · have hend := ((s.advance c).readChar setting c after).says_emit .lineEnd
    rw [show ((s.advance c).readChar setting c after).line = s.line from hturns.reading.2.2] at hend
    exact hread.trans hend
  · exact hread

/-- What is said at the end is on the last line, but for what is left open. -/
theorem finish_says {s : State} (h : Layered s.stack) :
    ∃ new, s.finish.signals = s.signals ++ new ∧
      ∀ x ∈ new, x.isUnterminated = false → x.line = s.line := by
  have hturns := s.settled_turns h
  obtain ⟨new, hsettled, hnew⟩ := hturns.says_line
  have hreviewed : ∃ new, s.reviewed.signals = s.signals ++ new ∧
      ∀ x ∈ new, x.isUnterminated = false → x.line = s.line := by
    unfold reviewed
    split
    · rename_i problem hproblem
      obtain ⟨frame, -, rfl⟩ := Option.map_eq_some_iff.mp hproblem
      refine ⟨new ++ [.problem ⟨frame.line, .unterminated frame.construct⟩], ?_, ?_⟩
      · rw [← List.append_assoc, ← hsettled]
        simp [signals, signal]
      · refine List.forall_mem_append.mpr ⟨fun x hx _ => (hnew x hx).1, ?_⟩
        simp [Signal.isUnterminated]
    · exact ⟨new, hsettled, fun x hx _ => (hnew x hx).1⟩
  have hline : s.reviewed.line = s.line := by
    have hsame : s.settled.line = s.line := hturns.reading.2.2
    unfold reviewed
    split <;> exact hsame
  obtain ⟨new', hnew', hlines⟩ := hreviewed
  obtain ⟨last, hlast, hlastLine⟩ := s.reviewed.says_emit .complete
  refine ⟨new' ++ last, by rw [finish_reviewed, hlast, hnew', List.append_assoc], ?_⟩
  refine List.forall_mem_append.mpr ⟨hlines, fun x hx _ => ?_⟩
  rw [(hlastLine x hx).1, hline]

/-! ## Moments of a scan -/

/-- The state when that many characters of the source have been read. -/
def reached (setting : Setting) (source : List Char) (place : Nat) : State :=
  through setting {} (source.take place) (source.drop place)

theorem reached_layered (setting : Setting) (source : List Char) (place : Nat) :
    Layered (reached setting source place).stack :=
  layered_upheld.through setting layered_start _ _

theorem reached_line (setting : Setting) (source : List Char) (place : Nat) :
    (reached setting source place).line = (source.take place).count '\n' + 1 := by
  rw [reached, through_line, Nat.add_comm]

theorem reached_succ (hplace : place < source.length) : reached setting source (place + 1) =
    (reached setting source place).step setting source[place] (source.drop (place + 1)) := by
  rw [reached, List.take_succ_eq_append_getElem hplace, through_snoc, ← List.drop_eq_getElem_cons]
  rfl

theorem reached_length (setting : Setting) (source : List Char) :
    reached setting source source.length = run setting {} source := by
  rw [reached, List.take_length, List.drop_length, ← run_eq_through]

end State

open State

/-- What is said when the character at a place is read, or at the end of the source. -/
def saidAt (setting : Setting) (source : List Char) (place : Nat) : List Signal :=
  (if place < source.length then (reached setting source (place + 1)).signals
    else signals setting source).drop (reached setting source place).signals.length

theorem saidAt_of_lt (hplace : place < source.length) :
    (reached setting source (place + 1)).signals =
      (reached setting source place).signals ++ saidAt setting source place ∧
    ∀ x ∈ saidAt setting source place,
      x.line = (source.take place).count '\n' + 1 ∧ x.isUnterminated = false := by
  obtain ⟨new, hnew, hline⟩ := step_says (reached_layered setting source place) setting
    source[place] (source.drop (place + 1))
  rw [← reached_succ hplace] at hnew
  have hsaid : saidAt setting source place = new := by
    rw [saidAt, if_pos hplace, hnew, List.drop_left]
  rw [hsaid, ← reached_line setting]
  exact ⟨hnew, hline⟩

theorem saidAt_length (setting : Setting) (source : List Char) :
    signals setting source =
      (reached setting source source.length).signals ++ saidAt setting source source.length ∧
    ∀ x ∈ saidAt setting source source.length, x.isUnterminated = false →
      x.line = source.count '\n' + 1 := by
  obtain ⟨new, hnew, hline⟩ := finish_says (reached_layered setting source source.length)
  rw [reached_line, List.take_length] at hline
  have hsignals : signals setting source =
      (reached setting source source.length).signals ++ new := by
    rw [← hnew, reached_length]
    rfl
  have hsaid : saidAt setting source source.length = new := by
    rw [saidAt, if_neg (Nat.lt_irrefl _), hsignals, List.drop_left]
  rw [hsaid]
  exact ⟨hsignals, hline⟩

/-- **Everything is said at some place**, in the order of the places. -/
theorem signals_eq_flatMap (setting : Setting) (source : List Char) :
    signals setting source = (List.range (source.length + 1)).flatMap (saidAt setting source) := by
  have hreached (place : Nat) (hplace : place ≤ source.length) :
      (reached setting source place).signals =
        (List.range place).flatMap (saidAt setting source) := by
    induction place with
    | zero => rfl
    | succ place ih =>
        rw [(saidAt_of_lt hplace).1, ih (Nat.le_of_lt hplace), List.range_succ,
          List.flatMap_append, List.flatMap_singleton]
  rw [(saidAt_length setting source).1, hreached _ (Nat.le_refl _), List.range_succ,
    List.flatMap_append, List.flatMap_singleton]

/-! ## Where a signal comes from -/

/-- The signal comes from that place of the source: it is said there or, if it reports
what is left open, that has been entered there and has stood ever since. -/
inductive ComesFrom (setting : Setting) (source : List Char) : Signal → Nat → Prop where
  | said {x : Signal} {place : Nat} : x.isUnterminated = false → place ≤ source.length →
      x ∈ saidAt setting source place → ComesFrom setting source x place
  | entered {k : Construct} {line place : Nat} (below : List Frame) : place < source.length →
      ¬ Stands k line below (reached setting source place) →
      (∀ later, place < later → later ≤ source.length →
        Stands k line below (reached setting source later)) →
      ComesFrom setting source (.problem ⟨line, .unterminated k⟩) place

/-- **The line of a signal is one more than the newlines before its place.** -/
theorem ComesFrom.count_newlines (h : ComesFrom setting source x place) :
    (source.take place).count '\n' + 1 = x.line := by
  cases h with
  | said hx hplace hmem =>
      rcases Nat.lt_or_eq_of_le hplace with hlt | rfl
      · exact ((saidAt_of_lt hlt).2 x hmem).1.symm
      · rw [List.take_length]
        exact ((saidAt_length setting source).2 x hmem hx).symm
  | entered below hplace hbefore hafter =>
      -- It stands behind the character at its place, so it was begun on that line.
      have hstands := hafter (place + 1) (Nat.lt_succ_self place) hplace
      rw [reached_succ hplace] at hstands
      have hline := (step_stands (reached_layered setting source place) setting _ _
        hstands).resolve_left hbefore
      rw [← reached_line setting, ← hline]
      rfl

/-- What is open at the end comes from the place where it was entered. -/
theorem EnteredOn.comesFrom {k : Construct} {line : Nat} (h : EnteredOn setting source k line) :
    ∃ place, ComesFrom setting source (.problem ⟨line, .unterminated k⟩) place := by
  obtain ⟨below, read, c, after, rfl, -, hbefore, hafter⟩ := h
  refine ⟨read.length, .entered below (by simp) ?_ ?_⟩
  · rwa [reached, List.take_left, List.drop_left]
  · intro later hlater hlength
    obtain ⟨taken, rfl⟩ := Nat.exists_eq_add_of_lt hlater
    rw [reached, Nat.add_assoc, List.take_length_add_append, List.drop_length_add_append,
      List.take_succ_cons, List.drop_succ_cons]
    exact hafter _ _ (List.take_append_drop taken after).symm

/-- **Every signal comes from some place.** -/
theorem exists_comesFrom (hx : x ∈ signals setting source) :
    ∃ place, ComesFrom setting source x place := by
  cases hopen : x.isUnterminated with
  | false =>
      rw [signals_eq_flatMap] at hx
      obtain ⟨place, hplace, hmem⟩ := List.mem_flatMap.mp hx
      exact ⟨place, .said hopen (Nat.lt_succ_iff.mp (List.mem_range.mp hplace)) hmem⟩
  | true =>
      obtain ⟨line, k, rfl⟩ : ∃ line k, x = .problem ⟨line, .unterminated k⟩ := by
        unfold Signal.isUnterminated at hopen
        split at hopen
        · exact ⟨_, _, rfl⟩
        · cases hopen
      exact (unterminated_entered setting source
        (List.mem_filterMap.mpr ⟨_, hx, rfl⟩)).comesFrom

/-! ## Reports on a line -/

/-- **The span of a line.** Every newline ends a line, and so does the end of the text
where anything stands before it. For each of these lines there is one span: behind the
newlines of the lines before it, up to the carriage returns and the newline that end it.
Behind the last line it is empty and at the end. The line of a signal, counted by the
newlines before the place that the signal comes from, has the span on whose line that
place is. -/
theorem lineSpan_exact (source : String) :
    (Text.lines source.toList).length = source.toList.count '\n' +
      (if Text.LineStart source.toList source.length then 0 else 1) ∧
    (∀ n span, 1 ≤ n → n ≤ (Text.lines source.toList).length →
      (Text.lineSpan source n = span ↔ Text.IsLine source.toList n span)) ∧
    (∀ n, (Text.lines source.toList).length < n →
      Text.lineSpan source n = (source.length, source.length)) ∧
    ∀ setting, ∀ x ∈ signals setting source.toList,
      (∃ place, ComesFrom setting source.toList x place) ∧
      ∀ place, ComesFrom setting source.toList x place →
        Text.IsLine source.toList x.line (Text.lineSpan source x.line) ∧
        Text.OnLine source.toList (Text.lineSpan source x.line).1 place := by
  have hlength := Text.length_lines source.toList
  rw [String.length_toList] at hlength
  refine ⟨hlength, ?_, fun n => Text.lineSpan_of_length_lt source, ?_⟩
  · intro n span hn hle
    have hline := Text.lineSpan_isLine source hn (by split at hlength <;> omega)
    exact ⟨fun h => h ▸ hline, fun h => hline.unique h⟩
  · intro setting x hx
    refine ⟨exists_comesFrom hx, fun place hplace => ?_⟩
    have hcount := hplace.count_newlines
    have hle : (source.toList.take place).count '\n' ≤ source.toList.count '\n' :=
      (List.take_sublist place source.toList).count_le '\n'
    have hline := Text.lineSpan_isLine source (n := x.line) (by omega) (by omega)
    exact ⟨hline, hline.onLine hcount⟩

/-- A wide character, carriage returns, a line with nothing else, no newline at the end,
and code that is left open. -/
def openCode : String :=
  "é\r\n\r\n$\x7ba"

theorem openCode_comesFrom : ComesFrom {} openCode.toList
    (.problem ⟨3, .unterminated (.expression .escaped)⟩) 6 := by
  have hbefore : (State.reached {} openCode.toList 6).stack = [] := by decide +kernel
  have hafter : (State.reached {} openCode.toList 7).stack = [⟨.expression .escaped, 3⟩] ∧
      (State.reached {} openCode.toList 8).stack = [⟨.expression .escaped, 3⟩] := by
    decide +kernel
  have hlength : openCode.toList.length = 8 := by decide +kernel
  refine .entered [] (by rw [hlength]; decide) ?_ ?_
  · rintro ⟨k, -, hsuffix⟩
    rw [hbefore, List.suffix_nil] at hsuffix
    cases hsuffix
  · intro later hlater hle
    obtain rfl | rfl : later = 7 ∨ later = 8 := by omega
    · exact ⟨.expression .escaped, rfl, hafter.1 ▸ List.suffix_refl _⟩
    · exact ⟨.expression .escaped, rfl, hafter.2 ▸ List.suffix_refl _⟩

theorem lineSpan_exact_openCode :
    (2 ≤ (Text.lines openCode.toList).length ∧ Text.lineSpan openCode 2 = (3, 3) ∧
      Text.IsLine openCode.toList 2 (3, 3)) ∧
    ((Text.lines openCode.toList).length < 4 ∧ Text.lineSpan openCode 4 = (8, 8)) ∧
    Signal.problem ⟨3, .unterminated (.expression .escaped)⟩ ∈ signals {} openCode.toList ∧
    Text.IsLine openCode.toList 3 (5, 8) ∧ Text.OnLine openCode.toList 5 6 := by
  obtain ⟨-, hspan, hpast, hsignals⟩ := lineSpan_exact openCode
  have hlines : (Text.lines openCode.toList).length = 3 := by decide +kernel
  have hsecond : Text.lineSpan openCode 2 = (3, 3) := by decide +kernel
  have hthird : Text.lineSpan openCode 3 = (5, 8) := by decide +kernel
  have hproblem : Signal.problem ⟨3, .unterminated (.expression .escaped)⟩ ∈
      signals {} openCode.toList := by
    decide +kernel
  have hshown := (hsignals {} _ hproblem).2 6 openCode_comesFrom
  refine ⟨⟨by omega, hsecond, ?_⟩, ⟨by omega, ?_⟩, hproblem, ?_⟩
  · exact (hspan 2 (3, 3) (by omega) (by omega)).mp hsecond
  · rw [hpast 4 (by omega)]
    decide +kernel
  · rw [show Signal.line (.problem ⟨3, .unterminated (.expression .escaped)⟩) = 3 from rfl,
      hthird] at hshown
    exact hshown

end Templating.Scan
