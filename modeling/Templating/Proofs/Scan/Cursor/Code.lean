import Templating.Proofs.Scan.Cursor.Tracks

/-!
# Code by byte offsets

Inside code the reader of bytes keeps up with the scanner: brackets and strings do
not change where the pending text begins, and what ends is cut from there. The look
ahead for the end of an angle bracket goes over bytes as it goes over characters.
-/

namespace Templating.Scan

open Text (Slice octets cut? minus? byteSize IsAscii Twin)

/-! ## The look ahead -/

section LookAhead

variable {x c : Char}

theorem closesAngle?_wide {xs : List Char} (hxs : ∀ x ∈ xs, ¬ IsAscii x) (hne : xs ≠ [])
    (depth nested : Nat) (previous : Char) (ys : List Char) : ∃ x, ¬ IsAscii x ∧
      closesAngle? depth nested previous (xs ++ ys) = closesAngle? depth nested x ys := by
  induction xs generalizing previous with
  | nil => exact absurd rfl hne
  | cons x xs ih =>
      have hx : ¬ IsAscii x := hxs x (by simp)
      have hother (a : Char) (ha : IsAscii a) : ¬ x = a := by
        rintro rfl
        exact hx ha
      have hstep : closesAngle? depth nested previous (x :: (xs ++ ys)) =
          closesAngle? depth nested x (xs ++ ys) := by
        rw [closesAngle?]
        simp (disch := decide) only [hother, false_and, or_self, if_false]
      rw [List.cons_append, hstep]
      rcases List.eq_nil_or_concat xs with rfl | ⟨zs, z, hzs⟩
      · exact ⟨x, hx, rfl⟩
      · exact ih (fun y hy => hxs y (by simp [hy])) (by simp [hzs]) x

/-- **Looking ahead over bytes is looking ahead over characters**, and no counter
falls below zero. -/
theorem closesAngle?_octets (h : Twin x c) (deeper nested : Nat) (cs : List Char) :
    closesAngle? (deeper + 1) nested x (octets cs) = some (closesAngle deeper nested c cs) := by
  induction cs generalizing x c deeper nested with
  | nil => rfl
  | cons d cs ih =>
      by_cases hd : IsAscii d
      · have hdash := h.eq_iff (show IsAscii '-' by decide)
        have hequals := h.eq_iff (show IsAscii '=' by decide)
        have hsame (deeper nested : Nat) := ih (Or.inl (Eq.refl d)) deeper nested
        rw [Text.octets_cons, Text.octets_ascii hd, List.singleton_append, closesAngle?, closesAngle]
        simp only [ne_eq, hdash, hequals, h.eq_iff hd]
        split
        · exact hsame (deeper + 1) nested
        split
        · rw [Text.minus?_of_le (Nat.le_add_left 1 deeper), Option.bind_some, Nat.add_sub_cancel]
          cases deeper with
          | zero => rfl
          | succ deeper => exact hsame deeper nested
        split
        · exact hsame deeper (nested + 1)
        split
        · cases nested with
          | zero => rfl
          | succ nested => exact hsame deeper nested
        split
        · rfl
        split
        · rfl
        · exact hsame deeper nested
      · obtain ⟨y, hy, hskip⟩ := closesAngle?_wide (Text.octets_wide hd) (Text.octets_ne_nil d)
          (deeper + 1) nested x (octets cs)
        have hother (a : Char) (ha : IsAscii a) : ¬ d = a := by
          rintro rfl
          exact hd ha
        rw [Text.octets_cons, hskip, ih (Or.inr ⟨hy, hd⟩), closesAngle]
        simp (disch := decide) only [hother, false_and, or_self, if_false]

end LookAhead

/-- The letters and digits of a path are in three ranges of ASCII characters. -/
theorem isAscii_of_isAlphanum {c : Char} (h : c.isAlphanum = true) : IsAscii c := by
  have upTo (high : Char) (hhigh : IsAscii high) (hle : c.val ≤ high.val) : IsAscii c :=
    Nat.lt_of_le_of_lt hle hhigh
  rcases Bool.or_eq_true_iff.mp h with hletter | hdigit
  · rcases Bool.or_eq_true_iff.mp hletter with hupper | hlower
    · have hrange : 'A'.val ≤ c.val ∧ c.val ≤ 'Z'.val := of_decide_eq_true hupper
      exact upTo 'Z' (by decide) hrange.2
    · exact upTo 'z' (by decide) (of_decide_eq_true (Bool.and_eq_true_iff.mp hlower).2)
  · exact upTo '9' (by decide) (of_decide_eq_true (Bool.and_eq_true_iff.mp hdigit).2)

theorem asciiSort_endsPath : Text.AsciiSort endsPath := by
  refine .of_false fun c hc => ?_
  simp only [endsPath, Bool.or_eq_true, beq_iff_eq] at hc
  rcases hc with (h | rfl) | rfl
  · exact isAscii_of_isAlphanum h
  · decide
  · decide

namespace Cursor

variable {source front after : List Char} {c : Char} {i : Nat} {s : State} {u : Cursor}

/-! ## Brackets and strings -/

section Inner

theorem Tracks.push_inner (h : Tracks s u) {k : Construct} (hk : k.isInner = true) :
    Tracks (s.push k) (u.push k) := by
  have hcall : k.isCall = false := by
    cases k <;> first | rfl | exact absurd hk (by simp [Construct.isInner])
  refine ⟨h.toKnows.push k, ?_⟩
  show markOf u.last (⟨k, u.state.line⟩ :: u.state.stack) (0 :: u.starts) = _
  rw [markOf, if_neg (by simp [hcall]), if_pos hk]
  exact h.mark

theorem Knows.exists_start (h : Knows s u) {frame : Frame} {rest : List Frame}
    (hstack : s.stack = frame :: rest) : ∃ start starts, u.starts = start :: starts := by
  have hlength := h.starts
  rw [hstack] at hlength
  cases hstarts : u.starts with
  | nil => simp [hstarts] at hlength
  | cons start starts => exact ⟨start, starts, rfl⟩

theorem Knows.stack (h : Knows s u) : u.state.stack = s.stack := by
  rw [h.state]
  rfl

theorem Tracks.pop_inner (h : Tracks s u) (hs : s.top.isInner = true) :
    Leads Tracks u.pop? s.pop := by
  have htext : s.top ≠ .text := by
    intro htop
    rw [htop] at hs
    exact absurd hs (by decide)
  obtain ⟨frame, rest, hstack, hframe⟩ := State.stack_of_top rfl htext
  obtain ⟨start, starts, hstarts⟩ := h.exists_start hstack
  obtain ⟨v, hv, hknows, hlast, htail⟩ := h.toKnows.pop (by simp [hstack]) (fun h => absurd h htext)
  have hcall : frame.construct.isCall = false := by
    rw [hframe]
    cases hk : s.top <;> first | rfl | (rw [hk] at hs; exact absurd hs (by simp [Construct.isInner]))
  refine ⟨v, hv, hknows, ?_⟩
  have hmark := h.mark
  unfold Cursor.mark at hmark ⊢
  rw [h.stack, hstack, hstarts, markOf, if_neg (by simp [hcall]), hframe, if_pos hs] at hmark
  rw [hknows.stack, State.pop_stack, hstack, htail, hstarts, hlast, State.pop_position,
    State.pop_pending]
  exact hmark

theorem Tracks.become (h : Tracks s u) {k : Construct} (hstack : s.stack ≠ [])
    (hinner : k.isInner = s.top.isInner) (hcall : k.isCall = s.top.isCall) :
    Tracks (s.become k) (u.become k) := by
  obtain ⟨frame, rest, hframe⟩ := List.exists_cons_of_ne_nil hstack
  obtain ⟨start, starts, hstarts⟩ := h.exists_start hframe
  have htop : s.top = frame.construct := by
    unfold State.top
    rw [hframe]
  refine ⟨⟨?_, ?_⟩, ?_⟩
  · show u.state.become k = _
    rw [h.state, State.textless_become]
  · show u.starts.length = _
    rw [h.starts, State.become, hframe]
    rfl
  · have hmark := h.mark
    unfold Cursor.mark at hmark ⊢
    rw [State.become_position, State.become_pending, ← hmark, h.stack, hframe, hstarts]
    show markOf u.last (u.state.become k).stack u.starts = _
    rw [State.become, h.stack, hframe, hstarts]
    simp only [markOf]
    rw [hinner, hcall, htop]

end Inner

/-! ## What ends -/

section Ends

theorem Level.tracks_outer (h : Level s u) (hs : s.top.isOuter = true) : Tracks s u :=
  h.tracks (Construct.not_isInner_of_isOuter hs) (isCall_of_isOuter hs)

theorem Tracks.endCode (h : Tracks s u) (hs : Here source front c after i s)
    (hl : Layered s.stack) (htop : s.top.isOuter = true) (htext : s.top ≠ .text)
    (body : Slice → Event.Body) :
    Leads Tracks (u.endCode? source i body)
      (if s.pop.settle.top = .text then s.pop.settle.emit (body (s.slice 1))
        else s.pop.settle) := by
  have houter : AllOuter s.pop.settle.stack := by
    show AllOuter s.pop.stack
    rw [State.pop_stack]
    exact (hl.all_outer htop).tail
  obtain ⟨frame, rest, hstack, -⟩ := State.stack_of_top rfl htext
  obtain ⟨v, hv, hknows, hlast, -⟩ := h.toKnows.pop (by simp [hstack]) (fun h => absurd h htext)
  have hcut : cut? source v.last i = some (s.slice 1) := by
    rw [hlast, (h.level htop).last]
    exact hs.cut
  have hlevel := hknows.settledHere hs.pop
  unfold endCode?
  rw [hv]
  refine Leads.found hcut ?_
  refine .done ?_
  rw [hlevel.top]
  split
  · exact (hlevel.say _).tracks_outer (by simpa using AllOuter.top houter)
  · exact hlevel.tracks_outer (AllOuter.top houter)

theorem Tracks.closeBrace (h : Tracks s u) (hs : Here source front c after i s)
    (hl : Layered s.stack) : Leads Tracks (u.closeBrace? source i) s.closeBrace := by
  unfold closeBrace? State.closeBrace
  rw [h.top]
  cases htop : s.top with
  | block => exact h.pop_inner (by rw [htop]; rfl)
  | expression escaping =>
      exact h.endCode hs hl (by rw [htop]; rfl) (by simp [htop]) (.expression escaping)
  | statement => exact h.endCode hs hl (by rw [htop]; rfl) (by simp [htop]) .statement
  | _ => exact .done h

theorem Level.closeHeader (h : Level s u) (hs : Here source front c after i s)
    (body : Slice → Event.Body) :
    Leads Tracks (u.closeHeader? source i body) (s.closeHeader body) := by
  unfold closeHeader?
  refine Leads.found (a := s.slice 1) ?_ (.done ?_)
  · rw [h.last]
    exact hs.cut
  · exact (((h.settledHere hs).say _).push .text).tracks_outer rfl

/-- In a call the innermost start is where the pending text begins. -/
theorem Tracks.head_starts (h : Tracks s u) (hcall : s.top.isCall = true) :
    u.starts.head? = some (s.position - byteSize s.pending) := by
  have htext : s.top ≠ .text := by
    intro htop
    rw [htop] at hcall
    cases hcall
  obtain ⟨frame, rest, hstack, hframe⟩ := State.stack_of_top rfl htext
  obtain ⟨start, starts, hstarts⟩ := h.exists_start hstack
  have hmark := h.mark
  unfold Cursor.mark at hmark
  rw [h.stack, hstack, hstarts, markOf, hframe, if_pos hcall] at hmark
  rw [hstarts, List.head?_cons, hmark]

theorem Tracks.lastArgument (h : Tracks s u) (hs : Here source front c after i s)
    {call : PendingCall} {angles : Nat} (htop : s.top = .arguments call angles) :
    u.lastArgument? source i = some s.lastArgument := by
  unfold lastArgument?
  rw [h.head_starts (by rw [htop]; rfl)]
  simp only [Option.bind_eq_bind, Option.bind_some]
  rw [hs.cut]
  rfl

theorem Tracks.closeCall (h : Tracks s u) (hs : Here source front c after i s)
    (hl : Layered s.stack) {call : PendingCall} {angles : Nat}
    (htop : s.top = .arguments call angles) :
    Leads Tracks (u.closeCall? source i call) (s.closeCall call) := by
  have houter : AllOuter s.pop.settle.stack := by
    show AllOuter s.pop.stack
    rw [State.pop_stack]
    exact hl.tail_outer (by rw [htop]; rfl)
  obtain ⟨frame, rest, hstack, -⟩ := State.stack_of_top htop (by simp)
  obtain ⟨v, hv, hknows, -, -⟩ := h.toKnows.pop (by simp [hstack]) (by simp [htop])
  have hlevel := hknows.settledHere hs.pop
  unfold closeCall? State.closeCall
  refine Leads.found (h.lastArgument hs htop) ?_
  rw [hv]
  simp only [Option.bind_eq_bind, Option.bind_some]
  cases call.kind with
  | tag => exact .done ((hlevel.say _).tracks_outer (by simpa using AllOuter.top houter))
  | layout => exact .done (((hlevel.say _).push _).tracks_outer rfl)

theorem Tracks.closeParenthesis (h : Tracks s u) (hs : Here source front c after i s)
    (hl : Layered s.stack) : Leads Tracks (u.closeParenthesis? source i) s.closeParenthesis := by
  unfold closeParenthesis? State.closeParenthesis
  rw [h.top]
  cases htop : s.top with
  | parentheses =>
      refine (h.pop_inner (by rw [htop]; rfl)).bind fun v hv => ?_
      simp only
      rw [hv.top]
      cases hpop : s.pop.top with
      | condition => exact (hv.level (by rw [hpop]; rfl)).closeHeader hs.pop _
      | conditionElseIf => exact (hv.level (by rw [hpop]; rfl)).closeHeader hs.pop _
      | _ => exact .done hv
  | loopHeader =>
      have houter : s.top.isOuter = true := by rw [htop]; rfl
      have hpop : s.pop.top.isOuter = true := by
        refine AllOuter.top ?_
        rw [State.pop_stack]
        exact (hl.all_outer houter).tail
      obtain ⟨frame, rest, hstack, -⟩ := State.stack_of_top htop (by simp)
      refine ((h.level houter).pop (by simp [hstack]) (by simp [htop])).bind fun v hv => ?_
      simp only
      rw [hv.top]
      split
      · exact hv.closeHeader hs.pop _
      · exact .done (hv.tracks_outer hpop)
  | arguments call angles => exact h.closeCall hs hl htop
  | _ => exact .done h

end Ends

/-! ## Arguments -/

section Arguments

theorem Tracks.openParenthesis (h : Tracks s u) : Tracks s.openParenthesis u.openParenthesis := by
  unfold Cursor.openParenthesis State.openParenthesis
  rw [h.top]
  cases htop : s.top with
  | parentheses => exact h.push_inner rfl
  | arguments call angles => exact h.push_inner rfl
  | loopHeader => exact ((h.level (by rw [htop]; rfl)).push _).tracks_outer rfl
  | _ => exact h

/-- The next argument starts behind the comma. -/
theorem Knows.restart (h : Knows s u) (hstack : s.stack ≠ []) {k : Construct}
    (hk : k.isCall = true) : Tracks (s.become k).settle (u.restart k s.position) := by
  obtain ⟨frame, rest, hframe⟩ := List.exists_cons_of_ne_nil hstack
  obtain ⟨start, starts, hstarts⟩ := h.exists_start hframe
  refine ⟨⟨?_, ?_⟩, ?_⟩
  · show u.state.become k = (s.become k).textless
    rw [h.state, State.textless_become]
  · show (s.position :: u.starts.tail).length = (s.become k).stack.length
    rw [State.become, hframe, hstarts]
    have hlength := h.starts
    rwa [hframe, hstarts] at hlength
  · show markOf u.last (u.state.become k).stack (s.position :: u.starts.tail) = _
    rw [State.settle_pending, State.become, h.stack, hframe]
    simp only [markOf, hk, if_true]
    show s.position = (s.become k).position - 0
    rw [State.become_position, Nat.sub_zero]

theorem Tracks.splitArgument (h : Tracks s u) (hs : Here source front c after i s) :
    Leads Tracks (u.splitArgument? source i) s.splitArgument := by
  unfold splitArgument? State.splitArgument
  rw [h.top]
  cases htop : s.top with
  | arguments call angles =>
      obtain ⟨frame, rest, hstack, -⟩ := State.stack_of_top htop (by simp)
      cases angles with
      | zero =>
          refine Leads.found (h.lastArgument hs htop) (.done ?_)
          rw [hs.index]
          exact h.toKnows.restart (by simp [hstack]) rfl
      | succ angles => exact .done h
  | _ => exact .done h

theorem Tracks.becomeArguments (h : Tracks s u) {call : PendingCall} {angles : Nat}
    (htop : s.top = .arguments call angles) (angles' : Nat) :
    Tracks (s.become (.arguments call angles')) (u.become (.arguments call angles')) := by
  obtain ⟨frame, rest, hstack, -⟩ := State.stack_of_top htop (by simp)
  exact h.become (by simp [hstack]) (by rw [htop]; rfl) (by rw [htop]; rfl)

theorem opensGeneric?_eq (hs : Here source front c after i s) : opensGeneric? source i =
    some ([':', ':'].isPrefixOf front || closesAngle 0 0 '<' after) := by
  have hbefore : Text.firstBytes? (octets source) i = some (octets front.reverse) := by
    rw [hs.source, hs.place, ← Text.byteSize_reverse]
    exact Text.firstBytes?_octets front.reverse (c :: after)
  unfold opensGeneric?
  rw [hbefore, hs.rest]
  simp only [Option.bind_eq_bind, Option.bind_some]
  rw [Text.isSuffixOf_octets (by simp [IsAscii])]
  show (if [':', ':'].isPrefixOf front = true then _ else _) = _
  cases [':', ':'].isPrefixOf front with
  | true => rfl
  | false => exact closesAngle?_octets (Or.inl rfl) 0 0 after

theorem opensAngle_eq (before after : List Char) : opensAngle before after =
    (before.head?.any endsPath &&
      !after.head?.all (fun c => Text.isAsciiBlank c || c == '=') &&
      ([':', ':'].isPrefixOf before || closesAngle 0 0 '<' after)) := by
  unfold opensAngle
  cases before <;> cases after <;> simp [Bool.not_or, bne]

theorem Tracks.openAngle (h : Tracks s u) (hs : Here source front c after i s) :
    Leads Tracks (u.openAngle? source i) (s.openAngle after) := by
  obtain ⟨x?, hbefore, hx⟩ := hs.byteBefore
  have hspaced := Text.rel_twin_all
    (Text.asciiSort_isAsciiBlank.or (Text.asciiSort_beq (a := '=') (by decide))) hs.next
  unfold openAngle? State.openAngle
  refine Leads.found hbefore (Leads.found (opensGeneric?_eq hs) ?_)
  rw [h.top]
  cases htop : s.top with
  | arguments call angles =>
      simp only
      rw [Text.rel_twin_any asciiSort_endsPath hx, hspaced, ← opensAngle_eq, hs.before,
        List.tail_cons]
      refine .done ?_
      split
      · exact h.becomeArguments htop _
      · exact h
  | _ => exact .done h

theorem Tracks.closeAngle (h : Tracks s u) (hs : Here source front c after i s) :
    Leads Tracks (u.closeAngle? source i) s.closeAngle := by
  obtain ⟨x?, hbefore, hx⟩ := hs.byteBefore
  have hdash := Text.rel_twin_iff hx (show IsAscii '-' by decide)
  have hequals := Text.rel_twin_iff hx (show IsAscii '=' by decide)
  unfold closeAngle? State.closeAngle
  refine Leads.found hbefore ?_
  rw [h.top]
  cases htop : s.top with
  | arguments call angles =>
      simp only [ne_eq, hdash, hequals, hs.previous]
      by_cases harrow : front.head? = some '-' ∨ front.head? = some '='
      · rw [if_pos harrow, if_neg (fun hcloses => harrow.elim hcloses.2.1 hcloses.2.2)]
        exact .done h
      · rw [if_neg harrow]
        cases angles with
        | zero =>
            rw [Nat.zero_sub, State.become_top htop (by simp)]
            exact .done h
        | succ angles =>
            rw [if_pos ⟨Nat.succ_pos angles, not_or.mp harrow⟩]
            exact Leads.found (Text.minus?_of_le (Nat.le_add_left 1 angles))
              (.done (h.becomeArguments htop _))
  | _ => exact .done h

end Arguments

/-! ## One character of code -/

theorem Tracks.readCode (h : Tracks s u) (hs : Here source front c after i s)
    (hl : Layered s.stack) : Leads Tracks (u.readCode? source i c) (s.readCode c after) := by
  unfold State.readCode
  split
  · exact .done (h.push_inner rfl)
  · exact .done (h.push_inner rfl)
  · exact h.closeBrace hs hl
  · exact .done h.openParenthesis
  · exact h.closeParenthesis hs hl
  · exact h.splitArgument hs
  · exact h.openAngle hs
  · exact h.closeAngle hs
  · unfold readCode?
    split <;> first | exact .done h | contradiction

theorem Tracks.readString (h : Tracks s u) (c : Char) {escaping : Bool}
    (htop : s.top = .string escaping) :
    Leads Tracks (u.readString? c escaping) (s.readString c escaping) := by
  obtain ⟨frame, rest, hstack, -⟩ := State.stack_of_top htop (by simp)
  have become (escaping' : Bool) :
      Tracks (s.become (.string escaping')) (u.become (.string escaping')) :=
    h.become (by simp [hstack]) (by rw [htop]; rfl) (by rw [htop]; rfl)
  cases escaping with
  | true => exact .done (become false)
  | false =>
      by_cases hescape : c = '\\'
      · subst hescape
        exact .done (become true)
      · by_cases hquote : c = '"'
        · subst hquote
          exact h.pop_inner (by rw [htop]; rfl)
        · unfold readString? State.readString
          simp only [Bool.false_eq_true, if_false]
          exact .done h

end Cursor

end Templating.Scan
