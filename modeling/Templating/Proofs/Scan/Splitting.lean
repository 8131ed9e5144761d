import Templating.Proofs.Scan.Groups
import Templating.Proofs.Text.Everywhere

/-!
# Where arguments are split

The arguments of a call are split at the commas that stand directly in the list. A
square bracket begins no construct, so a comma in one stands directly in the list too,
and splits. Reading the list keeps two things in step: the arguments held so far, and
the commas at which they were split. An argument that is not grouped shows a comma
behind code that is not grouped, and the other way around.
-/

namespace Templating.Scan

open Template (Grouped Grouping Spot walk?)

/-! ## Groups in a list -/

namespace Construct

variable {call : PendingCall} {angles : Nat} {group : Char × Grouping}
  {groups : List (Char × Grouping)}

/-- No brace and no parenthesis is open where the list is innermost. -/
theorem within_flat
    (h : (arguments call angles).within (group :: groups) = [arguments call angles]) :
    group.1 ≠ '\x7d' ∧ group.1 ≠ ')' ∧
      (arguments call angles).within groups = [arguments call angles] := by
  rw [Construct.within] at h
  split at h
  · cases h
  · rename_i hbrace
    split at h
    · -- A parenthesis begins a construct in a list, and on what stands in it.
      obtain ⟨top, below, hwithin⟩ :=
        List.exists_cons_of_ne_nil (within_ne_nil (arguments call angles) groups)
      rw [hwithin] at h
      cases hk' : top.parenthesis? with
      | some k' => simp [hk'] at h
      | none =>
          obtain ⟨rfl, -⟩ : top = _ ∧ below = [] := by simpa [hk'] using h
          cases hk'
    · rename_i hparenthesis
      exact ⟨hbrace, hparenthesis, h⟩

/-- What a list holds does not matter to that. -/
theorem within_flat_congr (call' : PendingCall) (angles' : Nat)
    (h : (arguments call angles).within groups = [arguments call angles]) :
    (arguments call' angles').within groups = [arguments call' angles'] := by
  induction groups with
  | nil => rfl
  | cons group groups ih =>
      obtain ⟨hbrace, hparenthesis, hgroups⟩ := within_flat h
      rw [Construct.within, if_neg hbrace, if_neg hparenthesis]
      exact ih hgroups

end Construct

namespace State

variable {setting : Setting} {s t v : State} {kind : CallKind} {reference : String}
  {q after rest : List Char} {c : Char}

/-- A comma that comes next splits the arguments. -/
def Splits (s : State) : Prop :=
  ∃ call, s.top = .arguments call 0

/-- Every comma at which the arguments are split, in `q`, stands behind grouped
code. -/
def SplitsBetween (setting : Setting) (t : State) (q after : List Char) : Prop :=
  Everywhere (fun before c more =>
    c = ',' → (t.through setting before (c :: (more ++ after))).Splits → Grouped .all before) q

theorem splitsBetween_snoc : SplitsBetween setting t (q ++ [c]) after ↔
    SplitsBetween setting t q (c :: after) ∧
      (c = ',' → (t.through setting q (c :: after)).Splits → Grouped .all q) := by
  unfold SplitsBetween
  rw [everywhere_snoc]
  simp

/-- What is held of the list when `q` of it has been read: the call with the arguments
so far, how many angle brackets are open in the last one, the `piece` of it, and the
groups that are open. -/
structure Collects (setting : Setting) (t : State) (q after : List Char) (call : PendingCall)
    (angles : Nat) (piece : List Char) (spot : Spot) : Prop where
  inside : ∃ base, Inside base ((Construct.arguments call angles).upTo spot)
    { t.past q with pending := piece.reverse } (t.through setting q after)
  split : ∃ front, q = front ++ piece ∧
    (SplitsBetween setting t q after → Grouped .all front)
  grouped : (∀ a ∈ call.arguments, Grouped .all a.text.toList) ↔
    SplitsBetween setting t q after

variable {call : PendingCall} {angles : Nat} {piece : List Char} {spot spot' : Spot}
  {base : List Frame}

/-- The argument so far, with one more character. -/
theorem past_piece (piece : List Char) :
    (State.advance { t.past q with pending := piece.reverse } c).endLine c =
      { t.past (q ++ [c]) with pending := (piece ++ [c]).reverse } := by
  rw [past_snoc, List.reverse_append]
  unfold endLine
  split
  · simp [emit_eq, announcement, advance]
  · rfl

/-- The argument so far is grouped just when it is all that has been read. -/
theorem Collects.piece_iff (h : Collects setting t q after call angles piece spot)
    (hsplits : SplitsBetween setting t q after) : Grouped .all q ↔ Grouped .all piece := by
  obtain ⟨front, rfl, hfront⟩ := h.split
  exact (hfront hsplits).append_iff

/-- The last argument is kept, unless it is blank. -/
theorem forall_lastArgument {n : Nat} (h : s.slice 1 = ⟨n, String.ofList piece⟩) :
    (∀ a ∈ s.lastArgument, Grouped .all a.text.toList) ↔ Grouped .all piece := by
  have htext : (s.slice 1).trim.text = String.ofList (Text.trim piece) := by
    rw [h, Text.Slice.trim, String.toList_ofList]
  rw [← Template.grouped_trim, lastArgument]
  split
  · rename_i hblank
    rw [htext, String.ofList_eq_empty_iff] at hblank
    rw [hblank]
    exact iff_of_true (List.forall_mem_nil _) .nil
  · rw [List.forall_mem_singleton, htext, String.toList_ofList]

/-- The argument goes on. -/
theorem Collects.goOn (h : Collects setting t q (c :: after) call angles piece spot)
    (base : List Frame) (hcomma : c = ',' → ¬ (t.through setting q (c :: after)).Splits)
    {angles' : Nat} (hinside : Inside base ((Construct.arguments call angles').upTo spot')
      { t.past (q ++ [c]) with pending := (piece ++ [c]).reverse }
      (t.through setting (q ++ [c]) after)) :
    Collects setting t (q ++ [c]) after call angles' (piece ++ [c]) spot' := by
  have hsplits : SplitsBetween setting t (q ++ [c]) after ↔
      SplitsBetween setting t q (c :: after) := by
    rw [splitsBetween_snoc, and_iff_left]
    exact fun hc hs => absurd hs (hcomma hc)
  obtain ⟨front, hq, hfront⟩ := h.split
  refine ⟨⟨base, hinside⟩, ⟨front, ?_, fun hs => hfront (hsplits.mp hs)⟩, ?_⟩
  · rw [hq, List.append_assoc]
  · rw [hsplits]
    exact h.grouped

/-- Where the list itself is innermost, no construct stands in it. -/
theorem Inside.flat (h : Inside base ((Construct.arguments call angles).upTo spot) s t)
    (htop : t.top.isArguments = true) : spot.string? = none ∧
      (Construct.arguments call angles).within spot.groups = [.arguments call angles] := by
  obtain ⟨groups, string?⟩ := spot
  cases string? with
  | some escaping =>
      rw [show t.top = .string escaping from h.top] at htop
      cases htop
  | none =>
      obtain ⟨top, below, hwithin⟩ :=
        List.exists_cons_of_ne_nil (Construct.within_ne_nil (.arguments call angles) groups)
      have hinside : Inside base ((Construct.arguments call angles).within groups) _ _ := h
      rw [hwithin] at hinside
      obtain ⟨rfl, rfl⟩ := Construct.within_arguments hwithin (hinside.top ▸ htop)
      exact ⟨rfl, hwithin⟩

theorem Collects.flat (h : Collects setting t q after call angles piece spot)
    (htop : (t.through setting q after).top.isArguments = true) :
    spot.string? = none ∧
      (Construct.arguments call angles).within spot.groups = [.arguments call angles] := by
  obtain ⟨base, hinside⟩ := h.inside
  exact hinside.flat htop

theorem reads_separator {g : Grouping} (hc : c ∈ [',', '<', '>']) (hstring : spot.string? = none)
    (hread : Spot.Reads g spot c spot') : spot' = spot := by
  have hplain (g : Grouping) : g.opens? c = none ∧ g.closes c = false ∧ c ≠ '"' := by
    simp only [List.mem_cons, List.not_mem_nil, or_false] at hc
    rcases hc with rfl | rfl | rfl <;> cases g <;> decide
  cases hread with
  | quote groups => exact absurd rfl (hplain g).2.2
  | opens groups hopens =>
      rw [(hplain _).1] at hopens
      cases hopens
  | closes close h groups hcloses =>
      rw [(hplain h).2.1] at hcloses
      cases hcloses
  | plain groups _ _ _ => rfl
  | _ => cases hstring

/-- A separator that does not split changes the number of angle brackets at most. -/
theorem readCode_separator (after : List Char) (htop : s.top = .arguments call angles)
    (hc : c ∈ [',', '<', '>']) (hsplit : ¬ (c = ',' ∧ angles = 0)) :
    ∃ angles', s.readCode c after = s.become (.arguments call angles') := by
  have hsame : s = s.become (.arguments call angles) := by
    obtain ⟨frame, rest, hstack, hframe⟩ := stack_of_top htop (by simp)
    rw [become, hstack, ← hframe]
    exact congrArg (fun stack => { s with stack }) hstack
  simp only [List.mem_cons, List.not_mem_nil, or_false] at hc
  rcases hc with rfl | rfl | rfl
  · refine ⟨angles, Eq.trans ?_ hsame⟩
    show s.splitArgument = s
    unfold splitArgument
    rw [htop]
    cases angles with
    | zero => exact absurd ⟨rfl, rfl⟩ hsplit
    | succ n => rfl
  · show ∃ angles', s.openAngle after = _
    unfold openAngle
    rw [htop]
    simp only
    split
    · exact ⟨angles + 1, rfl⟩
    · exact ⟨angles, hsame⟩
  · show ∃ angles', s.closeAngle = _
    unfold closeAngle
    rw [htop]
    simp only
    split
    · exact ⟨angles, hsame⟩
    · exact ⟨angles - 1, rfl⟩

/-- The constructs of a list that is innermost do not depend on what it holds. -/
theorem upTo_flat (hstring : spot.string? = none) (hflat :
    (Construct.arguments call angles).within spot.groups = [.arguments call angles])
    (call' : PendingCall) (angles' : Nat) :
    (Construct.arguments call' angles').upTo spot = [.arguments call' angles'] := by
  rw [Construct.upTo, hstring, Construct.within_flat_congr _ _ hflat]
  rfl

theorem slice_piece (piece : List Char) (s : State) :
    (State.advance { s with pending := piece.reverse } c).slice 1 =
      ⟨s.position - Text.byteSize piece, String.ofList piece⟩ := by
  simp [slice, Text.Slice.endingAt, advance]

/-- An argument ends. -/
theorem Collects.splitHere (h : Collects setting t q (',' :: after) call 0 piece spot)
    (htop : (t.through setting q (',' :: after)).top = .arguments call 0) :
    ∃ arguments, Collects setting t (q ++ [',']) after { call with arguments } 0 [] spot := by
  obtain ⟨hstring, hflat⟩ := h.flat (by rw [htop]; rfl)
  obtain ⟨base, hinside⟩ := h.inside
  rw [upTo_flat hstring hflat] at hinside
  have hadvance := hinside.advance ','
  have hslice := slice_piece (c := ',') piece (t.past q)
  rw [← hadvance.slice] at hslice
  generalize hw : (t.through setting q (',' :: after)).advance ',' = w at hadvance hslice
  have htopw : w.top = .arguments call 0 := hw ▸ htop
  let call' : PendingCall := { call with arguments := call.arguments ++ w.lastArgument }
  have hread : t.through setting (q ++ [',']) after =
      (w.become (.arguments call' 0)).settle := by
    rw [through_snoc, State.step, endLine_of_ne _ (by decide), hw,
      readChar_readsCode (by rw [htopw]; rfl)]
    show w.splitArgument = _
    rw [splitArgument, htopw]
    rfl
  have hsplits : SplitsBetween setting t (q ++ [',']) after ↔
      SplitsBetween setting t q (',' :: after) ∧ Grouped .all q := by
    rw [splitsBetween_snoc]
    exact and_congr_right fun _ => ⟨fun hq => hq rfl ⟨call, htop⟩, fun hq _ _ => hq⟩
  have hpast : State.settle (State.advance { t.past q with pending := piece.reverse } ',') =
      { t.past (q ++ [',']) with pending := ([] : List Char).reverse } := by
    have hpiece := congrArg State.settle (past_piece (t := t) (q := q) (c := ',') piece)
    rwa [endLine_of_ne _ (by decide)] at hpiece
  refine ⟨call'.arguments, ⟨base, ?_⟩, ⟨q ++ [','], by simp, fun hs => ?_⟩, ?_⟩
  · rw [hread, upTo_flat hstring hflat, ← hpast]
    exact (hadvance.become _).settle
  · rw [(hsplits.mp hs).2.append_iff]
    exact .plain (by decide) rfl rfl .nil
  · rw [hsplits, List.forall_mem_append, forall_lastArgument hslice, h.grouped]
    exact and_congr_right fun hs => (h.piece_iff hs).symm

/-- **Reading on in the list** keeps the arguments and the commas in step. -/
theorem Collects.step (h : Collects setting t q (c :: after) call angles piece spot)
    (hfits : (Construct.arguments call angles).Fits .all spot.groups)
    (hread : Spot.Reads .all spot c spot') : ∃ arguments angles' piece',
      Collects setting t (q ++ [c]) after { call with arguments } angles' piece' spot' := by
  obtain ⟨base, hinside⟩ := h.inside
  have hadvance := hinside.advance c
  generalize hv : t.through setting q (c :: after) = v at hinside hadvance
  by_cases hlist : v.top.isArguments = true ∧ c ∈ [',', '<', '>']
  · obtain ⟨htop, hc⟩ := hlist
    obtain ⟨hstring, hflat⟩ := h.flat (hv ▸ htop)
    obtain rfl := reads_separator hc hstring hread
    rw [upTo_flat hstring hflat] at hinside hadvance
    by_cases hsplit : c = ',' ∧ angles = 0
    · obtain ⟨rfl, rfl⟩ := hsplit
      obtain ⟨arguments, hcollects⟩ := h.splitHere (hv ▸ hinside.top)
      exact ⟨arguments, 0, [], hcollects⟩
    · obtain ⟨angles', hbecome⟩ := readCode_separator after hadvance.top hc hsplit
      refine ⟨call.arguments, angles', piece ++ [c], h.goOn base ?_ ?_⟩
      · rintro rfl ⟨call', hcall'⟩
        rw [hv, hinside.top] at hcall'
        exact hsplit ⟨rfl, (Construct.arguments.inj hcall').2⟩
      · rw [upTo_flat hstring hflat, through_snoc, State.step, hv,
          readChar_readsCode (by rw [hadvance.top]; rfl), hbecome, ← past_piece]
        exact (hadvance.become _).endLine c
  · refine ⟨call.arguments, angles, piece ++ [c], h.goOn base ?_ ?_⟩
    · rintro rfl ⟨call', hcall'⟩
      rw [hv] at hcall'
      exact hlist ⟨by rw [hcall']; rfl, by decide⟩
    · rw [through_snoc, State.step, hv, ← past_piece]
      have hreads := readChar_reads setting after hread hfits hadvance fun htop hc =>
        hlist ⟨htop, hc⟩
      exact hreads.endLine c

/-- Of grouped code the arguments are collected from the start. -/
theorem exists_collects (setting : Setting) (after : List Char) (hpending : t.pending = [])
    (htop : t.top = .arguments call 0) (hnone : call.arguments = []) (hwalk : walk? .all {} q = some spot) :
    ∃ arguments angles piece,
      Collects setting t q after { call with arguments } angles piece spot := by
  induction q using List.reverseRecOn generalizing after spot with
  | nil =>
      obtain rfl := Option.some.inj hwalk
      obtain ⟨frame, base, hstack, hframe⟩ := stack_of_top htop (by simp)
      have hself : ({ t with pending := ([] : List Char).reverse } : State) = t := by
        rw [List.reverse_nil, ← hpending]
      have hinside : Inside base [.arguments call 0] t t := by
        rw [← hframe]
        exact Inside.of_stack [frame] hstack
      refine ⟨call.arguments, 0, [], ⟨base, ?_⟩, ⟨[], rfl, fun _ => .nil⟩, ?_⟩
      · exact hself.symm ▸ hinside
      · simp [hnone, SplitsBetween, everywhere_nil]
  | append_singleton q c ih =>
      rw [Template.walk?_snoc] at hwalk
      obtain ⟨p, hp, hread⟩ := Option.bind_eq_some_iff.mp hwalk
      obtain ⟨arguments, angles, piece, hcollects⟩ := ih (c :: after) hp
      have hfits : (Construct.arguments { call with arguments } angles).Fits .all p.groups :=
        Construct.Fits.walk (p := {}) (by rfl) hp
      exact hcollects.step hfits (Spot.reads_of_read? hread)

/-- At the end of the list the call is said, with the arguments that were collected. -/
theorem Collects.close (h : Collects setting t q (')' :: rest) call angles piece {}) :
    ∃ arguments, (t.through setting (q ++ [')']) rest).signals = t.signals ++ List.map Signal.event
        (newlines t.line t.depth q ++
          (t.past q).announcement (.call call.kind call.reference arguments)) ∧
      ((∀ a ∈ arguments, Grouped .all a.text.toList) ↔
        SplitsBetween setting t q (')' :: rest) ∧ Grouped .all piece) := by
  obtain ⟨base, hinside⟩ := h.inside
  have hadvance := hinside.advance ')'
  have hslice := slice_piece (c := ')') piece (t.past q)
  rw [← hadvance.slice] at hslice
  generalize hw : (t.through setting q (')' :: rest)).advance ')' = w at hadvance hslice
  have htop : w.top = .arguments call angles := hadvance.top
  refine ⟨call.arguments ++ w.lastArgument, ?_, ?_⟩
  · have hread : (t.through setting (q ++ [')']) rest).signals = (w.pop.settle.emit
        (.call call.kind call.reference (call.arguments ++ w.lastArgument))).signals := by
      rw [through_snoc, State.step, endLine_of_ne _ (by decide), hw,
        readChar_readsCode (by rw [htop]; rfl)]
      show w.closeParenthesis.signals = _
      rw [closeParenthesis, htop]
      show (w.closeCall call).signals = _
      unfold closeCall
      cases call.kind <;> rfl
    rw [hread, hadvance.pop_eq (by simp), emit_signals, List.map_append, ← List.append_assoc,
      ← past_signals]
    rfl
  · rw [List.forall_mem_append, forall_lastArgument hslice, h.grouped]

/-- Where a comma splits, nothing but square brackets is open. -/
theorem Collects.grouped_of_splits (h : Collects setting t q after call angles piece spot)
    (hwalk : walk? .all {} q = some spot) (hsplits : (t.through setting q after).Splits)
    (hbracket : '[' ∉ q) : Grouped .all q := by
  obtain ⟨call', htop⟩ := hsplits
  obtain ⟨hstring, hflat⟩ := h.flat (by rw [htop]; rfl)
  obtain ⟨groups, string?⟩ := spot
  obtain rfl : string? = none := hstring
  rw [Template.grouped_iff, hwalk]
  cases groups with
  | nil => rfl
  | cons group groups =>
      obtain ⟨o, ho, g, hopens⟩ := Template.exists_opening hwalk group List.mem_cons_self
      obtain ⟨hbrace, hparenthesis, -⟩ := Construct.within_flat hflat
      rcases Grouping.bracket_of_opens? hopens with ⟨-, hclose⟩ | ⟨-, hclose⟩ | ⟨rfl, -⟩
      · exact absurd hclose hbrace
      · exact absurd hclose hparenthesis
      · exact absurd ho hbracket

/-- At the opening parenthesis of a call its list begins. -/
theorem step_call (setting : Setting) (after : List Char) (htop : s.top = .reference kind) :
    ∃ reference, (s.step setting '(' after).top = .arguments { kind, reference } 0 ∧
      (s.step setting '(' after).pending = [] := by
  obtain ⟨frame, below, hstack, hframe⟩ := stack_of_top htop (by simp)
  have hread : s.step setting '(' after = (s.advance '(').beginArguments kind := by
    rw [State.step, endLine_of_ne _ (by decide), readChar, advance_top, htop]
    exact if_pos rfl
  have begun (u : State) (hu : u.stack = s.stack) (k : Construct) :
      (u.settle.become k).top = k ∧ (u.settle.become k).pending = [] := by
    refine ⟨?_, by simp⟩
    rw [become, settle_stack, hu, hstack]
    rfl
  rw [hread, beginArguments]
  refine ⟨_, begun _ ?_ _⟩
  split <;> rfl

end State

open State

/-- **Arguments are cut at commas in square brackets, and nowhere else.** Let the list of
a call be grouped. Then behind its parenthesis the call has been said, and all its
arguments are grouped just when every comma that splits stands behind grouped code. So
they are if no square bracket is opened. -/
theorem arguments_grouped_iff (setting : Setting) (read p rest : List Char) {kind : CallKind} :
    let s := State.through setting {} read ('(' :: (p ++ ')' :: rest))
    let t := s.step setting '(' (p ++ ')' :: rest)
    let u := t.through setting (p ++ [')']) rest
    s.top = .reference kind → Grouped .all p →
    ∃ reference arguments, u.signals = t.signals ++ List.map Signal.event
        (newlines t.line t.depth p ++
          (t.past p).announcement (.call kind reference arguments)) ∧
      ((∀ a ∈ arguments, Grouped .all a.text.toList) ↔
        SplitsBetween setting t p (')' :: rest)) ∧
      ('[' ∉ p → ∀ a ∈ arguments, Grouped .all a.text.toList) := by
  intro s t u htop hp
  obtain ⟨reference, htop', hpending⟩ := step_call setting (p ++ ')' :: rest) htop
  have hcollects {q : List Char} (after : List Char) {spot : Spot}
      (hwalk : walk? .all {} q = some spot) :=
    exists_collects setting after hpending htop' rfl hwalk
  obtain ⟨arguments, angles, piece, hend⟩ := hcollects (')' :: rest)
    (Template.grouped_iff.mp hp)
  obtain ⟨said, hsaid, hgrouped⟩ := hend.close
  have hiff : (∀ a ∈ said, Grouped .all a.text.toList) ↔
      SplitsBetween setting t p (')' :: rest) := by
    rw [hgrouped, and_iff_left_of_imp]
    exact fun hs => (hend.piece_iff hs).mp hp
  refine ⟨reference, said, hsaid, hiff, fun hbracket => hiff.mpr ?_⟩
  rintro before c more hsplit rfl hsplits
  have hwalk := Template.grouped_iff.mp hp
  rw [hsplit, Template.walk?_append] at hwalk
  obtain ⟨spot, hbefore, -⟩ := Option.bind_eq_some_iff.mp hwalk
  obtain ⟨arguments', angles', piece', hmoment⟩ :=
    hcollects (',' :: (more ++ ')' :: rest)) hbefore
  exact hmoment.grouped_of_splits hbefore hsplits fun h => hbracket (by simp [hsplit, h])

theorem arguments_grouped_iff_tag :
    let t := State.through {} {} "@tag.t(".toList "(a, b), c)".toList
    ∃ reference arguments, (t.through {} "(a, b), c)".toList []).signals = t.signals ++
      List.map Signal.event
        ([] ++ [⟨1, 0, .headerEnd⟩, ⟨1, 0, .call .tag reference arguments⟩]) ∧
      ((∀ a ∈ arguments, Grouped .all a.text.toList) ↔
        SplitsBetween {} t "(a, b), c".toList ")".toList) ∧
      ('[' ∉ "(a, b), c".toList → ∀ a ∈ arguments, Grouped .all a.text.toList) :=
  arguments_grouped_iff {} "@tag.t".toList "(a, b), c".toList [] (by decide +kernel)
    (by decide +kernel)

/-- A list in square brackets is passed as two arguments. -/
theorem argument_cut : ¬ ∀ (setting : Setting) (read p rest : List Char) (kind : CallKind),
    let s := State.through setting {} read ('(' :: (p ++ ')' :: rest))
    let u := (s.step setting '(' (p ++ ')' :: rest)).through setting (p ++ [')']) rest
    s.top = .reference kind → Grouped .all p → ∀ line depth reference arguments,
      u.signals.getLast? = some (.event ⟨line, depth, .call kind reference arguments⟩) →
        ∀ a ∈ arguments, Grouped .all a.text.toList := by
  intro h
  have hfirst := h {} "@tag.t".toList "[1, 2]".toList [] .tag (by decide +kernel)
    (by decide +kernel) 1 0 "t" [⟨7, "[1"⟩, ⟨11, "2]"⟩] (by decide +kernel) ⟨7, "[1"⟩ (by simp)
  exact absurd hfirst (by decide +kernel)

end Templating.Scan
