import Templating.Proofs.Scan.Delimited
import Templating.Proofs.Scan.Placement

/-!
# The branch for all other cases

In the text of a condition `@else` ends the branch and begins another one directly behind
the word, at the end of the input too, unless the letter `i` follows. Then the word is left
as text; so it is before `if`, where `@elseif` ends the branch, and so it is before any
other word with that letter.
-/

namespace Templating.Scan

namespace State

variable {setting : Setting} {s : State} {c : Char} {cs word text after rest : List Char}

/-- Outside code the character may count for its own sake. -/
def isFollowed (c : Char) : Bool :=
  c ∈ ['(', ')', '<', '/', '=', '"', '>']

/-- Any other character is only taken, unless a directive ends there. -/
theorem readText_unfollowed (hquiet : Directive.endingAt? s.before after = none)
    (hc : isFollowed c = false) : s.readText setting c after = s := by
  have hmarkup (interest : Markup.Interest) : s.followMarkup interest c after = s := by
    unfold followMarkup
    simp only [isFollowed, List.mem_cons, List.not_mem_nil, or_false, decide_eq_false_iff_not,
      not_or] at hc
    rw [if_neg hc.2.2.1]
    split
    · rfl
    · rw [if_neg (by simp [hc])]
      split
      · rfl
      · split <;> simp_all
  unfold readText
  rw [hquiet]
  simp only
  split
  · cases hc
  · cases hc
  · exact hmarkup _
  · rfl

theorem step_unfollowed (setting : Setting) (hreads : s.top.readsText = true)
    (hquiet : Directive.endingAt? (c :: s.before) after = none) (hc : isFollowed c = false) :
    s.step setting c after = (s.advance c).endLine c := by
  have hadvance : (s.advance c).readText setting c after = s.advance c :=
    readText_unfollowed hquiet hc
  rw [step, readChar_readsText (s.advance c) _ _ _ hreads, hadvance]

@[simp] theorem endLine_before (s : State) (c : Char) : (s.endLine c).before = s.before := by
  unfold endLine
  split <;> simp

/-- Text is read on where no directive ends. -/
theorem through_unfollowed (hreads : s.top.readsText = true)
    (hquiet : Directive.Quiet s.before text rest)
    (htext : ∀ c ∈ text, isFollowed c = false) : s.through setting text rest = s.past text := by
  induction text generalizing s with
  | nil => rfl
  | cons c text ih =>
      obtain ⟨hc, htext⟩ := List.forall_mem_cons.mp htext
      have hstep := step_unfollowed setting hreads hquiet.head hc
      rw [through, hstep, past_cons]
      refine ih ?_ ?_ htext
      · rw [top_of_stack (endLine_stack _ c)]
        exact hreads
      · rw [endLine_before]
        exact hquiet.tail

/-- Where no line ends, reading on only moves the place. -/
theorem past_eq (h : '\n' ∉ cs) : s.past cs = { s with
    before := cs.reverse ++ s.before
    pending := cs.reverse ++ s.pending
    position := s.position + Text.byteSize cs } := by
  induction cs generalizing s with
  | nil => rfl
  | cons c cs ih =>
      obtain ⟨hc, hcs⟩ := not_or.mp (mt List.mem_cons.mpr h)
      rw [past_cons, endLine_of_ne _ (Ne.symm hc), ih hcs]
      simp [advance, Nat.add_assoc]

/-- **A directive of unfollowed characters is obeyed where its word ends.** -/
theorem through_word (setting : Setting) (d : Directive) (htop : s.top = .text)
    (hword : ∀ c ∈ d.word.toList, isFollowed c = false)
    (hafter : d = .conditionElse → after.head? ≠ some 'i') :
    s.through setting d.word.toList after = (s.past d.word.toList).obey d := by
  obtain ⟨-, -, hline⟩ := word_chars d
  obtain ⟨text, c, hlast⟩ : ∃ text c, d.word.toList = text ++ [c] := by
    obtain ⟨k, t, hw, -, -⟩ := Directive.exists_word d
    exact ⟨_, _, (List.dropLast_append_getLast (hw ▸ List.cons_ne_nil k t)).symm⟩
  have hpast : s.past d.word.toList = (s.past text).advance c := by
    rw [hlast, past_snoc, endLine_of_ne]
    rintro rfl
    exact hline (by simp [hlast])
  have hbefore : ((s.past text).advance c).before = d.word.toList.reverse ++ s.before := by
    rw [← hpast, past_eq hline]
  have htext : ∀ x ∈ text, isFollowed x = false := fun x hx => hword x (by simp [hlast, hx])
  have hquiet : Directive.Quiet s.before text (c :: after) := Directive.quiet_word d _ hlast
  have hfound : ((s.past text).advance c).directive? after = some d := by
    have htop' : ((s.past text).advance c).top = .text := by
      rw [advance_top, top_of_stack (past_stack _ _), htop]
    rw [directive?, if_pos (htop' ▸ rfl), hbefore]
    exact Directive.endingAt?_word d _ hafter
  have htop' : (s.past text).top = .text := by
    rw [top_of_stack (past_stack _ _), htop]
  rw [hpast, hlast, through_snoc, through_unfollowed (htop ▸ rfl) hquiet htext,
    step_directive htop' hfound, endLine_of_ne]
  rintro rfl
  exact hline (by simp [hlast])

/-! ## Branches -/

/-- The state behind a word that is obeyed: the text before it has been handed out. -/
def behindWord (s : State) (word : List Char) : State :=
  { s.flush 0 with
    before := word.reverse ++ s.before
    pending := []
    position := s.position + Text.byteSize word }

theorem behindWord_stack (s : State) (word : List Char) : (s.behindWord word).stack = s.stack :=
  flush_stack s 0

theorem flush_settle_past (h : '\n' ∉ word) :
    ((s.past word).flush word.length).settle = s.behindWord word := by
  have hslice : (s.past word).slice word.length = s.slice 0 := by
    rw [past_eq h]
    simp [slice, Text.byteSize_reverse]
  have hdrop : (s.past word).pending.drop word.length = s.pending.drop 0 := by
    rw [past_pending]
    simp
  unfold behindWord flush settle keep
  rw [hslice, hdrop, top_of_stack (past_stack s word), past_eq h]
  split
  · rw [emit_eq, emit_eq]
    rfl
  · rfl

/-- Where a branch ends and the next one begins, only the branch is said. -/
theorem branch_fields (hs : s.inTextOf Construct.isCondition = true) (hover : s.headerOver = true)
    (hdepth : 1 ≤ s.depth) :
    let t := (s.pop.emit .conditionElse).push .text
    t.signals = s.signals ++ [.event ⟨s.line, s.depth - 1, .conditionElse⟩] ∧
      t.pending = s.pending ∧ t.position = s.position ∧
      t.stack.map Frame.construct = s.stack.map Frame.construct ∧ t.depth = s.depth := by
  intro t
  obtain ⟨⟨k, line⟩, opener, below, hstack, htext, -⟩ := inTextOf_eq_true s hs
  obtain rfl : k = .text := htext
  have hpop : s.pop = { s with stack := opener :: below, depth := s.depth - 1 } := by
    unfold pop
    rw [hstack]
    rfl
  have ht : t = (State.emit _ .conditionElse).push .text := congrArg (fun u : State =>
    (u.emit .conditionElse).push .text) hpop
  rw [ht]
  refine ⟨?_, ?_, ?_, ?_, ?_⟩
  · show (State.emit _ _).signals = _
    rw [emit_signals, announcement, if_pos (by rw [hover]; rfl)]
    rfl
  · rw [push_pending, emit_pending]
  · show (State.emit _ _).position = _
    rw [emit_position]
  · rw [push_stack, emit_stack, hstack]
    rfl
  · show (State.emit _ _).depth + 1 = _
    rw [emit_depth]
    exact Nat.sub_add_cancel hdepth

/-- Behind `@else` another branch of the condition has begun: the text before is handed
out, the branch is said in place of what the text belongs to, and the next character is
the first one of the branch. -/
structure BranchesTo (s t : State) : Prop where
  signals : t.signals =
    (s.flush 0).signals ++ [.event ⟨s.line, s.depth - 1, .conditionElse⟩]
  pending : t.pending = []
  position : t.position = s.position + Text.byteSize Directive.conditionElse.word.toList
  scope : t.stack.map Frame.construct = s.stack.map Frame.construct
  depth : t.depth = s.depth

/-- In the text of a condition the header is over and the depth is not zero. -/
theorem over_of_inTextOf (hnested : Nested s) (hheader : InHeader s)
    (hs : s.inTextOf Construct.isCondition = true) : s.headerOver = true ∧ 1 ≤ s.depth := by
  obtain ⟨frame, opener, below, hstack, htext, hopener⟩ := inTextOf_eq_true s hs
  refine ⟨?_, hnested.one_le_depth (by simp [hstack]) (by simp [top, hstack, htext])⟩
  by_contra hover
  have hopened := hnested.opened
  rw [hheader.openAfter (Bool.eq_false_iff.mpr hover), hstack] at hopened
  obtain ⟨k, line⟩ := opener
  cases k <;> simp_all [openings, Construct.block?, Construct.isCondition]

theorem branchesTo_obey (hnested : Nested s) (hheader : InHeader s)
    (hs : s.inTextOf Construct.isCondition = true) :
    s.BranchesTo ((s.past Directive.conditionElse.word.toList).obey .conditionElse) := by
  obtain ⟨hover, hdepth⟩ := over_of_inTextOf hnested hheader hs
  obtain ⟨-, -, hline⟩ := word_chars .conditionElse
  let u := s.behindWord Directive.conditionElse.word.toList
  have hobey : (s.past Directive.conditionElse.word.toList).obey .conditionElse =
      (u.pop.emit .conditionElse).push .text := by
    show State.conditionElse _ _ = _
    rw [State.conditionElse, if_pos (by rw [inTextOf_of_stack (past_stack _ _), hs])]
    exact congrArg (fun u : State => (u.pop.emit .conditionElse).push .text)
      (flush_settle_past hline)
  have hstack : u.stack = s.stack := behindWord_stack s _
  have hlevel : u.depth = s.depth := flush_depth s 0
  have hstart : u.line = s.line := flush_line s 0
  have hbehind : u.headerOver = true := by
    show (s.flush 0).headerOver = true
    rcases flush_eq s 0 with h | h <;> simp [h, hover]
  obtain ⟨hsignals, hpending, hposition, hscope, hdepth'⟩ :=
    branch_fields (by rw [inTextOf_of_stack hstack, hs]) hbehind (hlevel.symm ▸ hdepth)
  rw [hstart, hlevel] at hsignals
  rw [hstack] at hscope
  rw [hobey]
  exact ⟨hsignals, hpending, hposition, hscope, hdepth'.trans hlevel⟩

/-- Where `@elseif` ends a branch, nothing is said but the text before it. -/
theorem elseIf_fields (hs : s.inTextOf Construct.isCondition = true) :
    let t := (s.past Directive.conditionElseIf.word.toList).obey .conditionElseIf
    t.signals = (s.flush 0).signals ∧ t.pending = [] ∧ t.stack.map Frame.construct =
      .conditionElseIf :: (s.stack.map Frame.construct).drop 2 := by
  intro t
  obtain ⟨-, -, hline⟩ := word_chars .conditionElseIf
  have ht : t = ((s.behindWord Directive.conditionElseIf.word.toList).pop.pop).push
      .conditionElseIf := by
    show State.conditionElseIf _ _ = _
    rw [State.conditionElseIf, if_pos (by rw [inTextOf_of_stack (past_stack _ _), hs])]
    exact congrArg (fun u : State => u.pop.pop.push .conditionElseIf) (flush_settle_past hline)
  rw [ht]
  refine ⟨?_, ?_, ?_⟩
  · show (State.pop _).signals = _
    rw [pop_signals, pop_signals]
    rfl
  · rw [push_pending, pop_pending, pop_pending]
    rfl
  · rw [push_stack, pop_stack, pop_stack, behindWord_stack]
    simp [← List.tail_drop]

/-! ## Words that go on with `i` -/

/-- Before the letter `i` no directive ends with `@else`. -/
theorem quiet_else (before after : List Char) :
    Directive.Quiet before Directive.conditionElse.word.toList ('i' :: after) := by
  intro u v huv hu
  have hword : Directive.conditionElseIf.word.toList = u ++ (v ++ ['i', 'f']) := by
    rw [Directive.elseIf_chars, huv, List.append_assoc]
  cases v with
  | nil => exact Directive.endingAt?_partial before hu hword
  | cons c v => exact Directive.endingAt?_partial before hu (v := v ++ ['i', 'f']) hword

end State

open State

/-- **`@else` begins another branch where the letter `i` does not follow.** Let the word be
read in the text of a condition. The scanner goes on behind it with another branch, unless
the letter follows; then it has only taken the word as text. If that letter and `f` follow,
no branch is said: the next one is a condition of its own, whose header comes. -/
theorem otherwise_iff (setting : Setting) (read after : List Char) :
    let word := Directive.conditionElse.word.toList
    let s := State.through setting {} read (word ++ after)
    let t := s.through setting word after
    s.inTextOf Construct.isCondition = true →
    (s.BranchesTo t ↔ after.head? ≠ some 'i') ∧
    (after.head? = some 'i' → t = s.past word) ∧
    ∀ rest, after = 'i' :: 'f' :: rest →
      let u := t.through setting ['i', 'f'] rest
      u.signals = (s.flush 0).signals ∧ u.pending = [] ∧
        u.stack.map Frame.construct =
          .conditionElseIf :: (s.stack.map Frame.construct).drop 2 := by
  intro word s t hs
  have hnested : Nested s := nested_invariant.through setting nested_start read _
  have hheader : InHeader s := inHeader_invariant.through setting inHeader_start read _
  have htop : s.top = .text := top_of_inTextOf s hs
  have hidle : ∀ c ∈ word, isFollowed c = false := by
    simp [word, Directive.word, isFollowed]
  have hleft : after.head? = some 'i' → t = s.past word := by
    intro hafter
    obtain ⟨rest, rfl⟩ := List.head?_eq_some_iff.mp hafter
    exact through_unfollowed (htop ▸ rfl) (quiet_else _ _) hidle
  refine ⟨⟨?_, ?_⟩, hleft, ?_⟩
  · intro hbranches hafter
    have hpending := hbranches.pending
    rw [hleft hafter, past_pending] at hpending
    exact absurd hpending (by simp [word, Directive.word])
  · intro hafter
    have hword := through_word setting .conditionElse htop hidle fun _ => hafter
    have ht : t = (s.past word).obey .conditionElse := hword
    rw [ht]
    exact branchesTo_obey hnested hheader hs
  · rintro rest rfl u
    have hidle' : ∀ c ∈ Directive.conditionElseIf.word.toList, isFollowed c = false := by
      simp [Directive.word, isFollowed]
    have hu : u = (s.past Directive.conditionElseIf.word.toList).obey .conditionElseIf := by
      rw [← through_word setting .conditionElseIf htop hidle' nofun,
        Directive.elseIf_chars, through_append]
      rfl
    rw [hu]
    exact elseIf_fields hs

theorem otherwise_iff_page :
    let read := "@if(a)x".toList
    let word := Directive.conditionElse.word.toList
    (let after := "y@endif".toList
      let s := State.through {} {} read (word ++ after)
      s.BranchesTo (s.through {} word after)) ∧
    let after := "if(b)y@endif".toList
    let s := State.through {} {} read (word ++ after)
    ((s.through {} word after).through {} ['i', 'f'] "(b)y@endif".toList).signals =
      (s.flush 0).signals := by
  refine ⟨(otherwise_iff {} _ "y@endif".toList (by decide +kernel)).1.mpr (by decide), ?_⟩
  exact ((otherwise_iff {} _ "if(b)y@endif".toList (by decide +kernel)).2.2 _ rfl).1

/-- Behind `@else` a text that begins with `i` belongs to the branch before. -/
theorem not_otherwise_of_letter : ¬ ∀ (setting : Setting) (read after : List Char),
    let word := Directive.conditionElse.word.toList
    let s := State.through setting {} read (word ++ after)
    s.inTextOf Construct.isCondition = true → ¬ ['i', 'f'] <+: after →
      s.BranchesTo (s.through setting word after) := by
  intro h
  have hpending := (h {} "@if(a)x".toList "it@endif".toList (by decide +kernel)
    (by decide)).pending
  revert hpending
  decide +kernel

end Templating.Scan
