import Templating.Proofs.Event.Branches
import Templating.Proofs.Scan.Nesting

/-!
# Branches of the conditions of a scan

The scanner does not remember that a condition has had its `@else`. What it obeys
there decides alone whether the branches of a template are in order: they are just
when neither `@else` nor `@elseif` is obeyed in the text of an `@else`. An `@elseif`
is obeyed before its event is said, which comes with the closing parenthesis; up to
there the branch is announced.
-/

namespace Templating.Scan

open Event (Branch Grammatical Orderly branches openAfter tally)

/-! ## Announced branches -/

/-- Whether another branch is announced for the condition that the construct keeps
open; `covered` says that its text is on the stack. -/
def Construct.announces? (covered : Bool) : Construct → Option Bool
  | .condition => if covered then some false else none
  | .conditionElseIf => some (!covered)
  | _ => none

/-- For each open condition of a stack, whether another branch is announced. -/
def upcoming (covered : Bool) : List Frame → List Bool
  | [] => []
  | frame :: rest =>
      (frame.construct.announces? covered).toList ++ upcoming (frame.construct == .text) rest

variable {frame : Frame} {rest stack : List Frame}

theorem upcoming_cons (h : frame.construct ≠ .text) {covered : Bool} :
    upcoming covered (frame :: rest) =
      (frame.construct.announces? covered).toList ++ upcoming false rest := by
  rw [upcoming, beq_eq_false_iff_ne.mpr h]

theorem upcoming_text (h : frame.construct = .text) :
    upcoming false (frame :: rest) = upcoming true rest := by
  rw [upcoming, h]
  rfl

theorem upcoming_push_text (line : Nat) :
    upcoming false (⟨.text, line⟩ :: rest) = upcoming true rest :=
  upcoming_text rfl

/-- Under no text, only the construct of an `@elseif` says something of a condition. -/
theorem upcoming_cons_other (htext : frame.construct ≠ .text)
    (helse : frame.construct ≠ .conditionElseIf) :
    upcoming false (frame :: rest) = upcoming false rest := by
  rw [upcoming_cons htext]
  cases hk : frame.construct <;> simp_all [Construct.announces?]

/-- A condition whose text is on the stack announces nothing. -/
theorem upcoming_isCondition (h : frame.construct.isCondition = true) :
    upcoming true (frame :: rest) = false :: upcoming false rest := by
  rw [upcoming_cons (spec_of_isCondition h).1]
  cases hk : frame.construct <;> simp_all [Construct.announces?, Construct.isCondition]

/-- One that is about no condition does not either. -/
theorem upcoming_covered (htext : frame.construct ≠ .text)
    (h : frame.construct.isCondition = false) :
    upcoming true (frame :: rest) = upcoming false rest := by
  rw [upcoming_cons htext]
  cases hk : frame.construct <;> simp_all [Construct.announces?, Construct.isCondition]

/-! ## Branches in order -/

/-- No branch is announced behind the one for all other cases. -/
def Announces (words : List (List Branch)) (waiting : List Bool) : Prop :=
  ∀ p ∈ words.zip waiting, p.2 = true → .otherwise ∉ p.1

@[simp] theorem announces_cons {word : List Branch} {words : List (List Branch)} {waits : Bool}
    {waiting : List Bool} : Announces (word :: words) (waits :: waiting) ↔
      (waits = true → .otherwise ∉ word) ∧ Announces words waiting := by
  simp [Announces]

/-- No branch has come, or is announced, behind the one for all other cases. -/
def InOrder (s : State) : Prop :=
  Orderly s.events ∧ Announces (branches s.events) (upcoming false s.stack)

/-- A directive that ends here goes on with another branch of a condition, and is
obeyed though the branch for all other cases has come. -/
def State.Late (s : State) (after : List Char) : Prop :=
  ∃ d ∈ s.directive? after, d.isBranch = true ∧ s.inTextOf Construct.isCondition = true ∧
    ∃ word ∈ (branches s.events).head?, .otherwise ∈ word

theorem branches_emit (s : State) (body : Event.Body) :
    branches (s.emit body).events = tally (branches s.events) ⟨s.line, s.depth, body⟩ := by
  rw [State.emit_events]
  unfold State.announcement
  split
  · simp
  · rw [List.append_cons, Event.branches_snoc, Event.branches_snoc,
      Event.tally_of_isApart (e := ⟨s.line, s.depth, .headerEnd⟩) rfl]

theorem orderly_emit (s : State) (body : Event.Body) :
    Orderly (s.emit body).events ↔ Orderly s.events ∧
      (body.role = .branches → ∀ word ∈ (branches s.events).head?, .otherwise ∉ word) := by
  rw [State.emit_events]
  unfold State.announcement Orderly
  split
  · rw [everywhere_snoc]
  · rw [List.append_cons, everywhere_snoc, everywhere_snoc, Event.branches_snoc,
      Event.tally_of_isApart (e := ⟨s.line, s.depth, .headerEnd⟩) rfl]
    simp [Event.Body.role]

section

variable {s t : State}

theorem inOrder_congr (hevents : t.events = s.events)
    (hstack : upcoming false t.stack = upcoming false s.stack) : InOrder t ↔ InOrder s := by
  unfold InOrder
  rw [hevents, hstack]

/-- What is apart from conditions does not matter. -/
theorem inOrder_emit (s : State) (body : Event.Body) (h : body.isApart = true) :
    InOrder (s.emit body) ↔ InOrder s := by
  unfold InOrder
  rw [orderly_emit, branches_emit, Event.tally_of_isApart (e := ⟨s.line, s.depth, body⟩) h,
    State.emit_stack]
  simp [(Event.role_of_isApart h).1]

theorem inOrder_push {k : Construct} (htext : k ≠ .text) (helse : k ≠ .conditionElseIf) :
    InOrder (s.push k) ↔ InOrder s :=
  inOrder_congr rfl (upcoming_cons_other htext helse)

theorem inOrder_pop (htext : s.top ≠ .text) (helse : s.top ≠ .conditionElseIf) :
    InOrder s.pop ↔ InOrder s := by
  obtain ⟨frame, rest, hstack, hframe⟩ := State.stack_of_top rfl htext
  refine inOrder_congr (by simp) ?_
  rw [State.pop_stack, hstack, List.tail_cons,
    upcoming_cons_other (hframe ▸ htext) (hframe ▸ helse)]

theorem ne_conditionElseIf_of_isPassive {k : Construct} (h : k.isPassive = true) :
    k ≠ .conditionElseIf := by
  rintro rfl
  exact absurd h (by decide)

theorem inOrder_pop_passive (h : s.top.isPassive = true) : InOrder s.pop ↔ InOrder s :=
  inOrder_pop (ne_text_of_isPassive h) (ne_conditionElseIf_of_isPassive h)

theorem inOrder_push_passive {k : Construct} (h : k.isPassive = true) :
    InOrder (s.push k) ↔ InOrder s :=
  inOrder_push (ne_text_of_isPassive h) (ne_conditionElseIf_of_isPassive h)

/-- What the nesting says in the text of a condition. -/
theorem Nested.condition (h : Nested s) (hs : s.inTextOf Construct.isCondition = true) :
    ∃ frame opener rest word words, s.stack = frame :: opener :: rest ∧
      branches s.events = word :: words ∧
      upcoming false s.stack = false :: upcoming false rest ∧
      upcoming true (opener :: rest) = false :: upcoming false rest := by
  obtain ⟨frame, opener, rest, hstack, hframe, hsort, -, -, hopened⟩ := h.scope hs
  obtain ⟨htext, -, -, hblock⟩ := spec_of_isCondition hsort
  have hhead : (openings true (opener :: rest)).head? = some ⟨.condition, stackDepth rest⟩ := by
    rw [openings_cons htext, hblock]
    rfl
  obtain ⟨word, words, hwords⟩ := Event.exists_word (Event.length_branches hopened) hhead
  have hcovered : upcoming true (opener :: rest) = false :: upcoming false rest :=
    upcoming_isCondition hsort
  refine ⟨frame, opener, rest, word, words, hstack, hwords, ?_, hcovered⟩
  rw [hstack, upcoming_text hframe, hcovered]

/-- The header of a construct ends: an announced branch has come. -/
theorem inOrder_header {body : Event.Body} (h : Nested s) (hs : Heads s.top body) :
    InOrder ((s.emit body).push .text) ↔ InOrder s := by
  obtain ⟨frame, rest, hstack, hframe, -, -, hopened⟩ := h.innermost rfl (spec_of_heads hs).1
  unfold InOrder
  rw [State.push_events, State.push_stack, State.emit_stack, orderly_emit, branches_emit,
    upcoming_push_text, hstack]
  rw [← hframe] at hs
  have htext : frame.construct ≠ .text := (spec_of_heads hs).1
  cases hk : frame.construct with
  | condition =>
      rw [hk] at hs
      cases hs
      rw [upcoming_isCondition (by rw [hk]; rfl),
        upcoming_cons_other htext (by rw [hk]; simp)]
      simp [tally, Event.Body.role]
  | conditionElseIf =>
      rw [hk] at hs
      cases hs
      have hhead : (openings false (frame :: rest)).head? =
          some ⟨.condition, stackDepth rest⟩ := by
        rw [openings_cons htext, hk]
        rfl
      obtain ⟨word, words, hwords⟩ := Event.exists_word (Event.length_branches hopened) hhead
      rw [upcoming_isCondition (by rw [hk]; rfl), upcoming_cons htext, hk, hwords]
      simp [tally, Event.Body.role, Construct.announces?]
      tauto
  | loop =>
      rw [hk] at hs
      cases hs
      rw [upcoming_covered htext (by rw [hk]; rfl),
        upcoming_cons_other htext (by rw [hk]; simp)]
      simp [tally, Event.Body.role]
  | _ =>
      rw [hk] at hs
      cases hs

/-- A condition or a loop ends. -/
theorem inOrder_endBlock {sort : Construct → Bool} {body : Event.Body} (h : Nested s)
    (hb : Ends sort body) (hs : s.inTextOf sort = true) :
    InOrder ((s.pop.emit body).pop) ↔ InOrder s := by
  unfold InOrder
  rw [State.pop_events, State.pop_stack, State.emit_stack, orderly_emit, branches_emit,
    State.pop_events, State.pop_stack]
  cases hb with
  | condition =>
      obtain ⟨frame, opener, rest, word, words, hstack, hwords, hupcoming, -⟩ := h.condition hs
      rw [hupcoming, hstack, hwords]
      simp [tally, Event.Body.role]
  | loop =>
      obtain ⟨frame, opener, rest, hstack, hframe, hsort⟩ := State.inTextOf_eq_true s hs
      have hloop : opener.construct = .loop := by simpa using hsort
      rw [hstack, upcoming_text hframe, upcoming_covered (by simp [hloop]) (by rw [hloop]; rfl)]
      simp [tally, Event.Body.role]

/-- The text of a slot begins or ends without touching a condition. -/
theorem upcoming_slot (hs : s.top = .slot) (line : Nat) :
    upcoming false (⟨.text, line⟩ :: s.stack) = upcoming false s.stack := by
  obtain ⟨frame, rest, hstack, hframe⟩ := State.stack_of_top hs (by simp)
  rw [upcoming_push_text, hstack, upcoming_covered (by simp [hframe]) (by rw [hframe]; rfl),
    upcoming_cons_other (by simp [hframe]) (by simp [hframe])]

/-! ## What the scanner does -/

/-- A deed keeps the branches in order, and it puts none in order. -/
theorem Deed.inOrder (h : Deed s t) (hs : Nested s) : InOrder t ↔ InOrder s := by
  cases h with
  | keep n => exact inOrder_congr rfl rfl
  | markup elements closingTag => exact inOrder_congr rfl rfl
  | report fault => exact inOrder_congr (State.report_events s fault) rfl
  | inline body hbody _ =>
      exact inOrder_emit s body (by cases body <;> first | rfl | cases hbody)
  | aside k hk _ => exact inOrder_push_passive (Construct.isPassive_of_isAside hk)
  | leave hs => exact inOrder_pop_passive (Construct.isPassive_of_isAside hs)
  | become k hs hk _ _ =>
      obtain ⟨frame, rest, hstack, hframe⟩ := State.stack_of_top rfl (ne_text_of_isPassive hs)
      refine inOrder_congr (by simp) ?_
      rw [hstack, upcoming_cons_other (hframe ▸ ne_text_of_isPassive hs)
        (hframe ▸ ne_conditionElseIf_of_isPassive hs)]
      simp only [State.become, hstack]
      exact upcoming_cons_other (ne_text_of_isPassive hk) (ne_conditionElseIf_of_isPassive hk)
  | call call angles reference arguments hs =>
      rw [inOrder_emit _ _ rfl, inOrder_pop_passive (by rw [hs]; rfl)]
  | render slot hs => rw [inOrder_emit _ _ rfl, inOrder_pop_passive (by rw [hs]; rfl)]
  | refuse fault hs =>
      exact (inOrder_congr (State.report_events _ fault) rfl).trans
        (inOrder_pop_passive (by rw [hs]; rfl))
  | header body hheads => exact inOrder_header hs hheads
  | endBlock sort body hb hin => exact inOrder_endBlock hs hb hin
  | layoutBegin call angles reference arguments hs =>
      rw [inOrder_push (by simp) (by simp), inOrder_emit _ _ rfl,
        inOrder_pop_passive (by rw [hs]; rfl)]
  | layoutEnd hs =>
      rw [inOrder_emit _ _ rfl, inOrder_pop (by simp [hs]) (by simp [hs])]
  | slotEnter hs => exact inOrder_push (by simp) (by simp)
  | slotBegin name hs =>
      rw [← inOrder_emit s (.slotBegin name) rfl]
      exact inOrder_congr rfl (upcoming_slot (by simpa using hs) s.line)
  | slotEnd hs =>
      obtain ⟨frame, opener, rest, hstack, hframe, hsort⟩ := State.inTextOf_eq_true s hs
      have hslot : opener.construct = .slot := by simpa using hsort
      rw [inOrder_emit _ _ rfl]
      refine inOrder_congr ?_ ?_
      · show s.pop.pop.events = s.events
        simp
      · show upcoming false s.pop.pop.stack = upcoming false s.stack
        rw [State.pop_stack, State.pop_stack, hstack, upcoming_text hframe,
          upcoming_covered (by simp [hslot]) (by rw [hslot]; rfl)]
        rfl

theorem Deeds.inOrder (h : Deeds s t) (hs : Nested s) : InOrder t ↔ InOrder s := by
  have hkept : Nested t ∧ (InOrder t ↔ InOrder s) :=
    h.preserves (P := fun u => Nested u ∧ (InOrder u ↔ InOrder s))
      (fun hdeed hu => ⟨hdeed.moves.preserves Nested.move hu.1,
        (hdeed.inOrder hu.1).trans hu.2⟩) ⟨hs, Iff.rfl⟩
  exact hkept.2

/-- Handing out the text before a directive adds no branch. -/
theorem State.Handed.branches {u : State} {d : Directive} (h : s.Handed d u) :
    branches u.events = branches s.events := by
  rcases h with rfl | rfl
  · rfl
  · rw [State.settle_events]
    rcases State.flush_eq s d.width with hflush | hflush
    · rw [hflush]
    · rw [hflush, branches_emit]
      exact Event.tally_of_isApart rfl _

/-- A directive keeps the branches in order just when it does not go on with another
branch behind the one for all other cases. -/
theorem Starts.inOrder {d : Directive} (h : Starts s d t) (hs : Nested s) :
    InOrder t ↔ InOrder s ∧
      (d.isBranch = true → ∀ word ∈ (branches s.events).head?, .otherwise ∉ word) := by
  cases h with
  | enter _ k hk =>
      rw [inOrder_push_passive (Construct.isPassive_of_construct? hk),
        Directive.not_isBranch_of_construct? hk]
      simp
  | otherwise hin =>
      obtain ⟨frame, opener, rest, word, words, hstack, hwords, hupcoming, hcovered⟩ :=
        hs.condition hin
      unfold InOrder
      rw [hupcoming, hwords, State.push_events, orderly_emit, branches_emit, State.pop_events,
        hwords, State.push_stack, State.emit_stack, State.pop_stack, upcoming_push_text, hstack,
        List.tail_cons, hcovered]
      simp [tally, Event.Body.role, Directive.isBranch]
      tauto
  | elseIf hin =>
      -- The branch is only announced here; its event comes with the header.
      obtain ⟨frame, opener, rest, word, words, hstack, hwords, hupcoming, -⟩ :=
        hs.condition hin
      have hwaits : upcoming false (s.pop.pop.push .conditionElseIf).stack =
          true :: upcoming false rest := by
        rw [State.push_stack, State.pop_stack, State.pop_stack, hstack,
          upcoming_cons (by simp)]
        rfl
      unfold InOrder
      rw [hupcoming, hwords, hwaits, State.push_events, State.pop_events, State.pop_events, hwords]
      simp [Directive.isBranch]
      tauto

/-- What goes on with another branch stands in the text of a condition. -/
theorem Starts.inText {d : Directive} (h : Starts s d t) (hd : d.isBranch = true) :
    s.inTextOf Construct.isCondition = true := by
  cases h with
  | enter _ k hk =>
      rw [Directive.not_isBranch_of_construct? hk] at hd
      cases hd
  | otherwise hin => exact hin
  | elseIf hin => exact hin

theorem inOrder_endDeclaration (hs : s.top.isDeclaration = true) (width : Nat) :
    InOrder (s.endDeclaration width) ↔ InOrder s := by
  have hpop : InOrder s.pop.settle ↔ InOrder s := by
    rw [← inOrder_pop_passive (Construct.isPassive_of_isDeclaration hs)]
    exact inOrder_congr rfl rfl
  have hreport (fault : Fault) : InOrder (s.pop.settle.report fault) ↔ InOrder s :=
    (inOrder_congr (State.report_events _ fault) rfl).trans hpop
  unfold State.endDeclaration
  simp only
  split
  · exact hreport _
  · split
    · split
      · exact (inOrder_emit _ _ rfl).trans hpop
      · exact hreport _
    · exact (inOrder_emit _ _ rfl).trans hpop

/-- Reading a character keeps the branches in order just when it is not late for
another one. -/
theorem inOrder_readChar (hs : Nested s) (setting : Setting) (c : Char) (after : List Char) :
    InOrder (s.readChar setting c after) ↔ InOrder s ∧ ¬ s.Late after := by
  by_cases hd : s.top.isDeclaration = true
  · have hlate : ¬ s.Late after := by
      rintro ⟨d, hdirective, -⟩
      rw [State.directive?, if_neg (Construct.not_readsText_of_isDeclaration hd)] at hdirective
      cases hdirective
    rw [State.readChar_declaration s setting c after hd]
    split
    · simp [inOrder_endDeclaration hd, hlate]
    · simp [hlate]
  · rcases State.readChar_deeds s setting c after (by simpa using hd) with
      ⟨hdeeds, hstrays⟩ | ⟨d, u, hdirective, hu, hstarts⟩
    · have hlate : ¬ s.Late after := by
        rintro ⟨d, hdirective, hbranch, hin, -⟩
        rw [(hstrays d hdirective).2 hbranch] at hin
        cases hin
      simp [hdeeds.inOrder hs, hlate]
    · have hnested : Nested u := hu.deeds.moves.preserves Nested.move hs
      rw [hstarts.inOrder hnested, hu.deeds.inOrder hs, hu.branches]
      refine and_congr_right fun _ => ?_
      constructor
      · rintro hword ⟨d', hd', hbranch, -, word, hhead, hmem⟩
        obtain rfl := Option.some.inj (hdirective.symm.trans hd')
        exact hword hbranch word hhead hmem
      · intro hlate hbranch word hhead hmem
        refine hlate ⟨d, hdirective, hbranch, ?_, word, hhead, hmem⟩
        rw [← State.inTextOf_of_stack hu.stack]
        exact hstarts.inText hbranch

theorem inOrder_step (hs : Nested s) (setting : Setting) (c : Char) (after : List Char) :
    InOrder (s.step setting c after) ↔ InOrder s ∧ ¬ (s.advance c).Late after := by
  have hadvance : Nested (s.advance c) := nested_invariant.advance s c hs
  have hread := inOrder_readChar hadvance setting c after
  rw [inOrder_congr (t := s.advance c) (s := s) rfl rfl] at hread
  rw [← hread]
  unfold State.step State.endLine
  split
  · rw [← inOrder_emit ((s.advance c).readChar setting c after) .lineEnd rfl]
    exact inOrder_congr rfl rfl
  · rfl

theorem inOrder_settled (hs : Nested s) : InOrder s.settled ↔ InOrder s := by
  unfold State.settled
  simp only
  split
  · rename_i h
    have hdeclaration : s.top.isDeclaration = true := by
      rcases h with h | h <;> rw [h] <;> rfl
    rw [(State.deeds_flush_settle _ 0).inOrder (hs.endDeclaration 0 hdeclaration),
      inOrder_endDeclaration hdeclaration]
  · exact (State.deeds_flush_settle s 0).inOrder hs

/-- The branches are in order as far as the scanner has come just when it was never
late for one. -/
theorem inOrder_through (setting : Setting) (read after : List Char) :
    InOrder (State.through setting {} read after) ↔
      Everywhere (fun before c between =>
        ¬ ((State.through setting {} before (c :: between ++ after)).advance c).Late
          (between ++ after)) read := by
  induction read using List.reverseRecOn generalizing after with
  | nil =>
      refine iff_of_true ?_ (everywhere_nil _)
      exact ⟨everywhere_nil _, by simp [Announces, upcoming, branches, State.through]⟩
  | append_singleton read c ih =>
      rw [State.through_snoc, everywhere_snoc,
        inOrder_step (nested_invariant.through setting nested_start _ _), ih (c :: after)]
      simp

end

/-- **The conditions of a template that is read without a problem have had their
branches as they may just when nothing was late**: when no `@else` or `@elseif` was
obeyed in the text of an `@else`. The scanner reports neither. -/
theorem grammatical_iff_never_late (setting : Setting) (source : List Char)
    (h : problems setting source = []) :
    Grammatical (events setting source) ↔ Everywhere (fun read c after =>
      ¬ ((State.through setting {} read (c :: after)).advance c).Late after) source := by
  have hrun : Nested (State.run setting {} source) :=
    nested_invariant.run setting nested_start source
  obtain ⟨hstack, hfinish⟩ := stack_settled_of_problems hrun h
  have hopened : openAfter (events setting source) = some [] :=
    ((events_nested setting source).2.2 h).1
  have hlast : InOrder (State.run setting {} source).finish ↔
      Grammatical (events setting source) := by
    rw [Event.grammatical_iff hopened, events_eq]
    refine and_iff_left ?_
    rw [hfinish, State.emit_stack, hstack]
    simp [Announces, upcoming]
  rw [← hlast, hfinish, inOrder_emit _ _ rfl, inOrder_settled hrun, State.run_eq_through,
    inOrder_through]
  simp

/-- Other branches under conditions, and then one for all other cases. -/
theorem grammatical_iff_never_late_elseIf :
    let source := "@if(a)x@elseif(b)y@else z@endif".toList
    problems {} source = [] ∧ Grammatical (events {} source) ∧
      Everywhere (fun read c after =>
        ¬ ((State.through {} {} read (c :: after)).advance c).Late after) source :=
  ⟨by decide +kernel, by decide +kernel,
    (grammatical_iff_never_late {} _ (by decide +kernel)).mp (by decide +kernel)⟩

/-- Two branches for all other cases are read without a problem. -/
theorem not_grammatical_of_two_elses : ¬ ∀ (setting : Setting) (source : List Char),
    problems setting source = [] → Grammatical (events setting source) := by
  intro h
  have htwo := h {} "@if(a)x@else y@else z@endif".toList (by decide +kernel)
  revert htwo
  decide +kernel

end Templating.Scan
