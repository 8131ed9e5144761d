import Mathlib.Data.List.Induction
import Templating.Proofs.Text.Lines

/-!
# Where lines stand

The line of a number starts behind as many newlines as lines come before it, and its
span leaves out the carriage returns and the newline that end it. That much fixes the
span, and it is the one that `lineSpan` finds by going over the lines. A place in the
text is on the line whose number the newlines before it give.
-/

namespace Templating.Text

variable {text front body after : List Char} {n start place : Nat} {span span' : Nat × Nat}

/-- A line starts at that place: at the beginning, or directly behind a newline. -/
def LineStart (text : List Char) (start : Nat) : Prop :=
  start = 0 ∨ (text.take start).getLast? = some '\n'

instance : Decidable (LineStart text start) :=
  inferInstanceAs (Decidable (_ ∨ _))

/-- What ends a line: carriage returns, if any, and then a newline or the end of the
text. -/
def EndsLine (after : List Char) : Prop :=
  ∃ returns rest, after = List.replicate returns '\r' ++ rest ∧
    (rest = [] ∨ rest.head? = some '\n')

/-- The characters of line `n` go from the first place of the span up to but not
including the second. -/
structure IsLine (text : List Char) (n : Nat) (span : Nat × Nat) : Prop where
  ordered : span.1 ≤ span.2
  within : span.2 ≤ text.length
  numbered : (text.take span.1).count '\n' + 1 = n
  starts : LineStart text span.1
  unbroken : '\n' ∉ text.extract span.1 span.2
  ends : EndsLine (text.drop span.2)
  /-- All the carriage returns that end the line are behind the span. -/
  trimmed : (text.extract span.1 span.2).getLast? ≠ some '\r'

/-- The place is on the line that starts there: no newline comes between. -/
structure OnLine (text : List Char) (start place : Nat) : Prop where
  reached : start ≤ place
  unbroken : '\n' ∉ text.extract start place

/-! ## One line for each number -/

theorem extract_append_extract {i j k : Nat} (hij : i ≤ j) (hjk : j ≤ k) :
    text.extract i j ++ text.extract j k = text.extract i k := by
  have hsum : k - i = (j - i) + (k - j) := by omega
  rw [List.extract_eq_take_drop, List.extract_eq_take_drop, List.extract_eq_take_drop, hsum,
    List.take_add, List.drop_drop, Nat.add_sub_of_le hij]

theorem take_append_extract {i j : Nat} (h : i ≤ j) :
    text.take i ++ text.extract i j = text.take j :=
  extract_append_extract (Nat.zero_le i) h

/-- What stands between two places of a text is not empty. -/
theorem getLast?_extract {i j : Nat} (hij : i < j) (hj : j ≤ text.length) :
    ∃ c ∈ text.extract i j, (text.extract i j).getLast? = some c := by
  cases hlast : (text.extract i j).getLast? with
  | none =>
      have hlength := congrArg List.length (List.getLast?_eq_none_iff.mp hlast)
      simp at hlength
      omega
  | some c => exact ⟨c, List.mem_of_getLast? hlast, rfl⟩

/-- **A place is on the line that starts behind as many newlines** as come before the
place. -/
theorem LineStart.onLine (hstarts : LineStart text start) (hstart : start ≤ text.length)
    (hcount : (text.take start).count '\n' = (text.take place).count '\n') :
    OnLine text start place := by
  have hle : start ≤ place := by
    by_contra hlt
    have hlt : place < start := Nat.lt_of_not_le hlt
    rw [← take_append_extract (Nat.le_of_lt hlt), List.count_append] at hcount
    -- The newline before the line would come between the place and the line.
    obtain ⟨c, hc, hlast⟩ := getLast?_extract hlt hstart
    have hnewline := hstarts.resolve_left (by omega)
    rw [← take_append_extract (Nat.le_of_lt hlt), List.getLast?_append, hlast,
      Option.some_or] at hnewline
    obtain rfl := Option.some.inj hnewline
    have := List.count_pos_iff.mpr hc
    omega
  rw [← take_append_extract hle, List.count_append] at hcount
  exact ⟨hle, List.count_eq_zero.mp (by omega)⟩

/-- What stands before the newline that ends a line is nothing but carriage returns. -/
theorem EndsLine.take_eq_replicate (h : EndsLine after) {i : Nat} (hi : '\n' ∉ after.take i) :
    ∃ returns, after.take i = List.replicate returns '\r' := by
  obtain ⟨returns, rest, rfl, hrest⟩ := h
  rw [List.take_append] at hi ⊢
  have hnone : rest.take (i - (List.replicate returns '\r').length) = [] := by
    rcases hrest with rfl | hhead
    · exact List.take_nil
    · obtain ⟨tail, rfl⟩ := List.head?_eq_some_iff.mp hhead
      cases hsize : i - (List.replicate returns '\r').length with
      | zero => rfl
      | succ m =>
          rw [hsize] at hi
          exact absurd (List.mem_append_right _ (by simp)) hi
  exact ⟨min i returns, by rw [hnone, List.append_nil, List.take_replicate]⟩

namespace IsLine

theorem onLine (h : IsLine text n span) (hplace : (text.take place).count '\n' + 1 = n) :
    OnLine text span.1 place :=
  h.starts.onLine (Nat.le_trans h.ordered h.within)
    (Nat.add_right_cancel (h.numbered.trans hplace.symm))

theorem stop_le (h : IsLine text n span) (h' : IsLine text n span') (hstart : span.1 = span'.1) :
    span'.2 ≤ span.2 := by
  by_contra hlt
  have hlt : span.2 < span'.2 := Nat.lt_of_not_le hlt
  have hsplit : text.extract span.1 span.2 ++ text.extract span.2 span'.2 =
      text.extract span'.1 span'.2 := by
    rw [extract_append_extract h.ordered (Nat.le_of_lt hlt), hstart]
  -- What the longer span has more is carriage returns, so it would end with one.
  have hunbroken : '\n' ∉ text.extract span.2 span'.2 := fun hmem =>
    h'.unbroken (hsplit ▸ List.mem_append_right _ hmem)
  obtain ⟨returns, hreturns⟩ := h.ends.take_eq_replicate hunbroken
  obtain ⟨c, hc, hlast⟩ := getLast?_extract hlt h'.within
  have htrimmed := h'.trimmed
  rw [← hsplit, List.getLast?_append, hlast, Option.some_or] at htrimmed
  rw [List.extract_eq_take_drop, hreturns] at hc
  exact htrimmed (congrArg some (List.eq_of_mem_replicate hc))

/-- **No other span is that line.** -/
theorem unique (h : IsLine text n span) (h' : IsLine text n span') : span = span' := by
  have hstart : span.1 = span'.1 :=
    Nat.le_antisymm (h.onLine h'.numbered).reached (h'.onLine h.numbered).reached
  exact Prod.ext hstart (Nat.le_antisymm (h'.stop_le h hstart.symm) (h.stop_le h' hstart))

/-- A line that is cut out of a text by what stands before and behind it. -/
theorem of_parts (hfront : front = [] ∨ front.getLast? = some '\n') (hbody : '\n' ∉ body)
    (hlast : body.getLast? ≠ some '\r') (hafter : EndsLine after) :
    IsLine (front ++ (body ++ after)) (front.count '\n' + 1)
      (front.length, front.length + body.length) := by
  have hextract : (front ++ (body ++ after)).extract front.length
      (front.length + body.length) = body := by
    rw [List.extract_eq_take_drop, List.drop_left, Nat.add_sub_cancel_left, List.take_left]
  refine ⟨by simp, by simp, by simp, ?_, ?_, ?_, ?_⟩
  · rw [LineStart, List.take_left, List.length_eq_zero_iff]
    exact hfront
  · rwa [hextract]
  · rwa [← List.append_assoc, ← List.length_append, List.drop_left]
  · rwa [hextract]

end IsLine

/-! ## Going over the lines -/

theorem dropLineEnd_snoc (body : List Char) (c : Char) : dropLineEnd (body ++ [c]) =
    if c = '\n' ∨ c = '\r' then dropLineEnd body else body ++ [c] := by
  unfold dropLineEnd
  rw [List.reverse_append, List.reverse_singleton, List.singleton_append, List.dropWhile_cons]
  split <;> rename_i hc
  · rw [if_pos (by simpa using hc)]
  · rw [if_neg (by simpa using hc), List.reverse_cons, List.reverse_reverse]

/-- All that is dropped from a line without its newline is carriage returns. -/
theorem exists_dropLineEnd (hbody : '\n' ∉ body) :
    (∃ returns, body = dropLineEnd body ++ List.replicate returns '\r') ∧
      (dropLineEnd body).getLast? ≠ some '\r' := by
  induction body using List.reverseRecOn with
  | nil => exact ⟨⟨0, rfl⟩, by simp [dropLineEnd]⟩
  | append_singleton body c ih =>
      obtain ⟨hbody, hc⟩ : '\n' ∉ body ∧ c ≠ '\n' := by
        simpa [eq_comm] using hbody
      obtain ⟨⟨returns, hreturns⟩, hlast⟩ := ih hbody
      rw [dropLineEnd_snoc]
      split
      · rename_i hend
        obtain rfl : c = '\r' := hend.resolve_left hc
        refine ⟨⟨returns + 1, ?_⟩, hlast⟩
        rw [List.replicate_succ', ← List.append_assoc, ← hreturns]
      · rename_i hend
        refine ⟨⟨0, (List.append_nil _).symm⟩, ?_⟩
        rw [List.getLast?_concat]
        exact fun h => hend (Or.inr (Option.some.inj h))

theorem lines_of_unbroken (hbody : '\n' ∉ body) (hne : body ≠ []) : lines body = [body] := by
  induction body with
  | nil => exact absurd rfl hne
  | cons c body ih =>
      rw [List.mem_cons, not_or] at hbody
      rw [lines, if_neg (Ne.symm hbody.1)]
      by_cases hempty : body = []
      · rw [hempty]
        rfl
      · rw [ih hbody.2 hempty]

theorem lines_cons_of_unbroken (hbody : '\n' ∉ body) (rest : List Char) :
    lines (body ++ '\n' :: rest) = (body ++ ['\n']) :: lines rest := by
  have hlength := length_lines_newline body
  rw [List.count_eq_zero.mpr hbody] at hlength
  obtain ⟨line, hline⟩ := List.length_eq_one_iff.mp hlength
  have hflat := flatten_lines (body ++ ['\n'])
  rw [hline, List.flatten_singleton] at hflat
  rw [lines_append_newline, hline, hflat, List.singleton_append]

/-- There is a line for each newline, and one more if anything stands behind the last. -/
theorem length_lines (cs : List Char) :
    (lines cs).length = cs.count '\n' + if LineStart cs cs.length then 0 else 1 := by
  induction cs with
  | nil => rfl
  | cons c cs ih =>
      cases cs with
      | nil => by_cases hc : c = '\n' <;> simp [lines, LineStart, hc]
      | cons d cs =>
          have hend : LineStart (c :: d :: cs) (c :: d :: cs).length ↔
              LineStart (d :: cs) (d :: cs).length := by
            simp [LineStart, List.getLast?_cons_cons]
          rw [lines, List.count_cons, if_congr hend rfl rfl]
          split
          · rename_i hc
            rw [List.length_cons, ih, hc, if_pos (beq_self_eq_true _)]
            omega
          · rename_i hc
            rw [if_neg (by simpa using hc), Nat.add_zero, ← ih]
            cases hlines : lines (d :: cs) with
            | nil =>
                have hflat := flatten_lines (d :: cs)
                rw [hlines] at hflat
                cases hflat
            | cons l ls => rfl

/-- The first line of what stands behind a newline. -/
theorem IsLine.first (hfront : front = [] ∨ front.getLast? = some '\n') (hbody : '\n' ∉ body)
    (hafter : after = [] ∨ after.head? = some '\n') :
    IsLine (front ++ (body ++ after)) (front.count '\n' + 1)
      (front.length, front.length + (dropLineEnd body).length) := by
  obtain ⟨⟨returns, hreturns⟩, hlast⟩ := exists_dropLineEnd hbody
  have hkept : '\n' ∉ dropLineEnd body := fun hmem =>
    hbody (hreturns ▸ List.mem_append_left _ hmem)
  have hends : EndsLine (List.replicate returns '\r' ++ after) := ⟨returns, after, rfl, hafter⟩
  have hline := IsLine.of_parts hfront hkept hlast hends
  rwa [← List.append_assoc (dropLineEnd body), ← hreturns] at hline

/-- **Going over the lines finds the line of a number**, counting on from what stands
before. -/
theorem spanFrom_isLine {cs : List Char} (hfront : front = [] ∨ front.getLast? = some '\n')
    (hn : n ≤ cs.count '\n') :
    IsLine (front ++ cs) (front.count '\n' + 1 + n) (spanFrom front.length (n + 1) (lines cs)) := by
  induction n generalizing front cs with
  | zero =>
      by_cases hnewline : '\n' ∈ cs
      · obtain ⟨body, rest, rfl, hbody⟩ := List.eq_append_cons_of_mem hnewline
        rw [lines_cons_of_unbroken hbody, spanFrom, if_pos rfl, dropLineEnd_snoc, if_pos (by simp)]
        exact IsLine.first hfront hbody (Or.inr rfl)
      · have hline := IsLine.first hfront hnewline (Or.inl rfl)
        rw [List.append_nil] at hline
        by_cases hempty : cs = []
        · subst hempty
          exact hline
        · rw [lines_of_unbroken hnewline hempty, spanFrom, if_pos rfl]
          exact hline
  | succ n ih =>
      have hnewline : '\n' ∈ cs := List.count_pos_iff.mp (by omega)
      obtain ⟨body, rest, rfl, hbody⟩ := List.eq_append_cons_of_mem hnewline
      have hcount : (body ++ '\n' :: rest).count '\n' = rest.count '\n' + 1 := by
        rw [List.count_append, List.count_eq_zero.mpr hbody, List.count_cons_self, Nat.zero_add]
      have hended : (front ++ (body ++ ['\n'])).getLast? = some '\n' := by simp
      have hrest := ih (Or.inr hended) (show n ≤ rest.count '\n' by omega)
      have htext : front ++ (body ++ ['\n']) ++ rest = front ++ (body ++ '\n' :: rest) := by simp
      have hnumber : (front ++ (body ++ ['\n'])).count '\n' = front.count '\n' + 1 := by
        rw [List.count_append, List.count_append, List.count_eq_zero.mpr hbody, Nat.zero_add,
          List.count_singleton_self]
      rw [htext, hnumber, List.length_append, Nat.add_assoc _ 1 n, Nat.add_comm 1 n] at hrest
      rwa [lines_cons_of_unbroken hbody, spanFrom, if_neg (by omega), Nat.add_sub_cancel]

/-- Behind the last line there is nothing but the end of the text. -/
theorem spanFrom_of_length_lt {start : Nat} {ls : List (List Char)} (hn : ls.length < n) :
    spanFrom start n ls = (start + ls.flatten.length, start + ls.flatten.length) := by
  induction ls generalizing start n with
  | nil => rfl
  | cons line ls ih =>
      rw [List.length_cons] at hn
      rw [spanFrom, if_neg (by omega), ih (by omega), List.flatten_cons, List.length_append,
        Nat.add_assoc]

/-- **The line of a number is found**, also the one behind a newline at the end. -/
theorem lineSpan_isLine (source : String) (hn : 1 ≤ n) (hle : n ≤ source.toList.count '\n' + 1) :
    IsLine source.toList n (lineSpan source n) := by
  have hbefore : n - 1 ≤ source.toList.count '\n' := by omega
  have hline := spanFrom_isLine (Or.inl (rfl : ([] : List Char) = [])) hbefore
  rw [Nat.sub_add_cancel hn, List.count_nil, Nat.zero_add, Nat.add_sub_cancel' hn] at hline
  exact hline

theorem lineSpan_of_length_lt (source : String) (hn : (lines source.toList).length < n) :
    lineSpan source n = (source.length, source.length) := by
  rw [lineSpan, spanFrom_of_length_lt hn, flatten_lines, Nat.zero_add, String.length_toList]

end Templating.Text
