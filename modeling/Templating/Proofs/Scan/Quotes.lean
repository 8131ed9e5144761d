import Templating.Proofs.Scan.Turn

/-!
# What events quote

Whatever an event quotes stands in the source where its slice says, and the
slices of all events, in the order in which they are said, lie one behind the
other: no byte of the source is handed out twice, and nothing changes its
place. The invariant follows the edge of what has been handed out. While a call
is read its arguments are on the stack and not yet said, but nothing else is
quoted until it ends.
-/

namespace Templating

namespace Text.Slice

/-- The slices lie one behind the other, from one byte offset to another. -/
inductive Spread : Nat → List Slice → Nat → Prop where
  | nil {start stop : Nat} : start ≤ stop → Spread start [] stop
  | cons {start stop : Nat} {s : Slice} {rest : List Slice} : start ≤ s.start →
      Spread s.stop rest stop → Spread start (s :: rest) stop

variable {start middle stop : Nat} {xs ys : List Slice} {s : Slice}

theorem start_le_stop (s : Slice) : s.start ≤ s.stop :=
  Nat.le_add_right _ _

theorem Spread.append (hxs : Spread start xs middle) (hys : Spread middle ys stop) :
    Spread start (xs ++ ys) stop := by
  induction hxs with
  | nil hle =>
      cases hys with
      | nil hle' => exact .nil (Nat.le_trans hle hle')
      | cons hle' hrest => exact .cons (Nat.le_trans hle hle') hrest
  | cons hle _ ih => exact .cons hle (ih hys)

theorem Spread.singleton (hstart : start ≤ s.start) (hstop : s.stop ≤ stop) :
    Spread start [s] stop :=
  .cons hstart (.nil hstop)

theorem Spread.behind (h : Spread start xs stop) : ∀ x ∈ xs, start ≤ x.start := by
  induction h with
  | nil _ => exact fun _ hx => absurd hx (by simp)
  | cons hle _ ih =>
      refine List.forall_mem_cons.mpr ⟨hle, fun x hx => ?_⟩
      exact Nat.le_trans hle (Nat.le_trans (start_le_stop _) (ih x hx))

/-- Each slice starts at the end of the ones before it, or behind it. -/
theorem Spread.pairwise (h : Spread start xs stop) :
    xs.Pairwise fun x y => x.stop ≤ y.start := by
  induction h with
  | nil _ => exact .nil
  | cons _ hrest ih => exact .cons hrest.behind ih

/-- Trimming takes nothing from outside. -/
theorem trim_within (s : Slice) : s.start ≤ s.trim.start ∧ s.trim.stop ≤ s.stop := by
  obtain ⟨rest, hrest⟩ := trimEnd_isPrefix (trimStart s.text.toList)
  have hsplit : s.text.toList.takeWhile isBlank ++ (Text.trim s.text.toList ++ rest) =
      s.text.toList := by
    unfold Text.trim
    rw [← hrest]
    exact List.takeWhile_append_dropWhile
  have hsize := congrArg byteSize hsplit
  rw [byteSize_append, byteSize_append] at hsize
  refine ⟨Nat.le_add_right _ _, ?_⟩
  simp only [stop, trim, String.toList_ofList]
  omega

theorem At.append {source : List Char} (h : s.At source) (more : List Char) :
    s.At (source ++ more) := by
  obtain ⟨front, back, hsource, hstart⟩ := h
  exact ⟨front, back ++ more, by rw [hsource, List.append_assoc], hstart⟩

end Text.Slice

namespace Scan

open Text (Slice byteSize)
open Text.Slice (Spread)

/-- Everything that the events quote, in the order in which they are said. -/
def quoted (es : List Event) : List Slice :=
  es.flatMap fun e => e.body.slices

/-- What the constructs of a stack hold back. -/
def held (stack : List Frame) : List Slice :=
  stack.flatMap fun frame => frame.construct.held

theorem held_eq_nil {stack : List Frame} (h : AllOuter stack) : held stack = [] :=
  List.flatMap_eq_nil_iff.mpr fun frame hf => Construct.held_of_isOuter (h frame hf)

namespace State

/-- Up to here the source has been dealt with: it is pending from here on,
except that a comment is dealt with while it is read. -/
def edge (s : State) : Nat :=
  if s.top = .comment then s.position else s.position - byteSize s.pending

/-- Everything that has been quoted, whether it has been said or not. -/
def given (s : State) : List Slice :=
  quoted s.events ++ held s.stack

theorem edge_le_position (s : State) : s.edge ≤ s.position := by
  unfold edge
  split <;> omega

theorem le_edge (s : State) : s.position - byteSize s.pending ≤ s.edge := by
  unfold edge
  split <;> omega

theorem edge_of_top {s : State} (h : s.top ≠ .comment) :
    s.edge = s.position - byteSize s.pending := if_neg h

theorem edge_settled {s : State} (h : s.pending = []) : s.edge = s.position := by
  unfold edge
  simp [h]

theorem byteSize_take_le (cs : List Char) (n : Nat) : byteSize (cs.take n) ≤ byteSize cs := by
  conv => rhs; rw [← List.take_append_drop n cs, Text.byteSize_append]
  exact Nat.le_add_right _ _

theorem edge_keep (s : State) (n : Nat) : s.edge ≤ (s.keep n).edge := by
  have hle := byteSize_take_le s.pending n
  unfold edge
  rw [keep_top]
  split
  · exact Nat.le_refl _
  · show _ ≤ s.position - byteSize (s.pending.take n)
    omega

theorem quoted_emit (s : State) (body : Event.Body) :
    quoted (s.emit body).events = quoted s.events ++ body.slices := by
  rw [emit_events]
  unfold announcement quoted
  split <;> simp [Event.Body.slices]

/-- **What is cut from the pending text** stands in what has been read, and ends
where the rest of the pending text begins. -/
theorem slice_pending {s : State} (hpending : s.pending <+: s.before)
    (hposition : s.position = byteSize s.before) {n : Nat} (hn : n ≤ s.pending.length) :
    (s.slice n).start = s.position - byteSize s.pending ∧
      (s.slice n).stop = s.position - byteSize (s.pending.take n) ∧
      (s.slice n).At s.before.reverse := by
  obtain ⟨gone, hgone⟩ := hpending
  have htake : s.before.take n = s.pending.take n := by
    rw [← hgone, List.take_append_of_le_length hn]
  have hsplit : byteSize s.pending =
      byteSize (s.pending.take n) + byteSize (s.pending.drop n) := by
    conv => lhs; rw [← List.take_append_drop n s.pending, Text.byteSize_append]
  have hsize : s.position = byteSize s.pending + byteSize gone := by
    rw [hposition, ← hgone, Text.byteSize_append]
  unfold State.slice Slice.endingAt
  rw [htake]
  refine ⟨?_, ?_, gone.reverse, (s.pending.take n).reverse, ?_, ?_⟩
  · show _ - _ = _
    omega
  · simp only [Slice.stop, String.toList_ofList, Text.byteSize_reverse]
    omega
  · rw [String.toList_ofList, ← hgone, List.append_assoc, ← List.reverse_append,
      List.take_append_drop, ← List.reverse_append]
  · rw [Text.byteSize_reverse]
    show _ - _ = _
    omega

end State

/-! ## The invariant -/

/-- Text that is handed out is not empty, and a parameter that is declared is
read from what is quoted. -/
def Solid : Event.Body → Prop
  | .text run => run.text ≠ ""
  | .param declaration param => Param.ofDeclaration declaration.text = .ok param
  | _ => True

/-- What has been quoted stands in what has been read, one slice behind the
other, up to the edge. -/
structure Laid (s : State) : Prop where
  layered : Layered s.stack
  pending : s.pending <+: s.before
  position : s.position = byteSize s.before
  spread : Spread 0 s.given s.edge
  stands : ∀ x ∈ s.given, x.At s.before.reverse
  solid : ∀ e ∈ s.events, Solid e.body

namespace Laid

variable {s t : State}

theorem start : Laid {} :=
  ⟨trivial, List.prefix_refl _, rfl, .nil (Nat.le_refl _), fun _ h => absurd h (by
    simp [State.given, quoted, held, State.events, State.signals]), fun _ h => absurd h (by
    simp [State.events, State.signals])⟩

/-- A turn quotes some more slices, between the edge as it was and as it is. -/
theorem turnTo (h : Laid s) (hturn : Turn s t) (hpending : t.pending <+: s.pending)
    (more : List Slice) (hgiven : t.given = s.given ++ more)
    (hmore : Spread s.edge more t.edge) (hstands : ∀ x ∈ more, x.At s.before.reverse)
    (hsolid : ∀ e ∈ t.events, Solid e.body) : Laid t := by
  obtain ⟨hbefore, hposition, -⟩ := hturn.reading
  refine ⟨hturn.layered h.layered, ?_, ?_, ?_, ?_, hsolid⟩
  · rw [hbefore]
    exact hpending.trans h.pending
  · rw [hposition, hbefore]
    exact h.position
  · rw [hgiven]
    exact h.spread.append hmore
  · rw [hgiven, hbefore]
    intro x hx
    rcases List.mem_append.mp hx with hx | hx
    · exact h.stands x hx
    · exact hstands x hx

/-- A turn behind which nothing is pending. -/
theorem turnSettled (h : Laid s) (hturn : Turn s t) (hpending : t.pending = [])
    (more : List Slice) (hgiven : t.given = s.given ++ more)
    (hmore : Spread s.edge more s.position) (hstands : ∀ x ∈ more, x.At s.before.reverse)
    (hsolid : ∀ e ∈ t.events, Solid e.body) : Laid t := by
  refine h.turnTo hturn (by simp [hpending]) more hgiven ?_ hstands hsolid
  rw [State.edge_settled hpending, hturn.reading.2.1]
  exact hmore

/-- A turn that quotes nothing. -/
theorem turnOn (h : Laid s) (hturn : Turn s t) (hpending : t.pending <+: s.pending)
    (hgiven : t.given = s.given) (hedge : s.edge ≤ t.edge)
    (hsolid : ∀ e ∈ t.events, Solid e.body) : Laid t :=
  h.turnTo hturn hpending [] (by simpa using hgiven) (.nil hedge) (by simp) hsolid

theorem solid_emit (h : Laid s) {u : State} (hu : u.events = s.events) {body : Event.Body}
    (hbody : Solid body) : ∀ e ∈ (u.emit body).events, Solid e.body :=
  u.forall_emit (by rw [hu]; exact h.solid) trivial hbody

theorem solid_of_quotes {x : Slice} {body : Event.Body} (h : Quotes x body) : Solid body := by
  cases body <;> first | exact trivial | exact absurd rfl (h.noText _) | exact h.scanned _ _ rfl

theorem solid_of_slices {body : Event.Body} (h : body.slices = []) : Solid body := by
  cases body <;> first | exact trivial | exact absurd h (by simp [Event.Body.slices])

/-- An event that quotes nothing. -/
theorem emit (h : Laid s) {body : Event.Body} (hbody : body.slices = []) : Laid (s.emit body) := by
  have hgiven : (s.emit body).given = s.given := by
    simp [State.given, State.quoted_emit, hbody]
  refine ⟨by simpa using h.layered, by simpa using h.pending, by simpa using h.position, ?_, ?_,
    h.solid_emit rfl (solid_of_slices hbody)⟩
  · rw [hgiven]
    simpa [State.edge] using h.spread
  · rw [hgiven, State.emit_before]
    exact h.stands

/-- What an event quotes of the pending text ends with that text, or before. -/
theorem quotes_spread (h : Laid s) (hs : AllOuter s.stack) {n : Nat}
    (hn : n ≤ s.pending.length) {body : Event.Body} (hbody : Quotes (s.slice n) body) :
    Spread s.edge body.slices s.position ∧ ∀ x ∈ body.slices, x.At s.before.reverse := by
  obtain ⟨hstart, hstop, hat⟩ := State.slice_pending h.pending h.position hn
  have hedge : s.edge = s.position - byteSize s.pending := by
    apply State.edge_of_top
    intro htop
    obtain ⟨frame, hf, hc⟩ : ∃ frame ∈ s.stack, frame.construct = .comment := by
      unfold State.top at htop
      cases hstack : s.stack with
      | nil => simp [hstack] at htop
      | cons frame rest => exact ⟨frame, by simp, by simpa [hstack] using htop⟩
    have := hs frame hf
    rw [hc] at this
    exact absurd this (by decide)
  obtain ⟨hfront, hback⟩ := (s.slice n).trim_within
  rcases hbody.slices with hslices | hslices
  · rw [hslices, hedge]
    exact ⟨.singleton (by omega) (by omega), by simpa using hat⟩
  · rw [hslices, hedge]
    exact ⟨.singleton (by omega) (by omega), by simpa using hat.trim⟩

/-- The last argument of a call that is read. -/
theorem lastArgument_spread (h : Laid s) (htop : s.top ≠ .comment)
    (hn : 1 ≤ s.pending.length) : Spread s.edge s.lastArgument s.position ∧
      ∀ x ∈ s.lastArgument, x.At s.before.reverse := by
  obtain ⟨hstart, hstop, hat⟩ := State.slice_pending h.pending h.position hn
  obtain ⟨hfront, hback⟩ := (s.slice 1).trim_within
  unfold State.lastArgument
  simp only
  rw [State.edge_of_top htop]
  split
  · exact ⟨.nil (Nat.sub_le _ _), by simp⟩
  · exact ⟨.singleton (by omega) (by omega), by simpa using hat.trim⟩

/-- Text is handed out, and some of what was pending before is kept. -/
theorem handOut (h : Laid s) {n m : Nat} (hm : m ≤ n) : Laid ((s.flush n).keep m) := by
  have hturn : Turn s ((s.flush n).keep m) := .handOut s n m hm
  have hkept : ((s.flush n).keep m).pending = s.pending.take m := by
    show (s.flush n).pending.take m = _
    rw [State.flush_pending]
  have hedge : s.position - byteSize (s.pending.take m) ≤ ((s.flush n).keep m).edge := by
    have := ((s.flush n).keep m).le_edge
    rw [hkept] at this
    rw [← s.flush_position n]
    exact this
  by_cases hs : s.top = .text ∧ s.pending.drop n ≠ []
  · have hflush : s.flush n = s.emit (.text (s.slice n)) := by
      unfold State.flush
      rw [if_pos hs]
    have hn : n ≤ s.pending.length := by
      have := List.length_pos_iff.mpr hs.2
      rw [List.length_drop] at this
      omega
    obtain ⟨hstart, hstop, hat⟩ := State.slice_pending h.pending h.position hn
    have houter : AllOuter s.stack := h.layered.all_outer (by rw [hs.1]; rfl)
    refine h.turnTo hturn (by rw [hkept]; exact List.take_prefix _ _) [s.slice n]
      ?_ ?_ (by simpa using hat) ?_
    · unfold State.given
      rw [State.keep_events, State.keep_stack, hflush, State.quoted_emit, State.emit_stack,
        held_eq_nil houter, List.append_nil, List.append_nil]
      rfl
    · have hmn : byteSize (s.pending.take m) ≤ byteSize (s.pending.take n) := by
        have := State.byteSize_take_le (s.pending.take n) m
        rwa [List.take_take, Nat.min_eq_left hm] at this
      refine .singleton ?_ ?_
      · rw [State.edge_of_top (by simp [hs.1])]
        omega
      · omega
    · rw [State.keep_events, hflush]
      refine h.solid_emit rfl ?_
      show (s.slice n).text ≠ ""
      rw [State.slice, Slice.endingAt]
      simpa using hs.2
  · have hflush : s.flush n = s := by
      unfold State.flush
      rw [if_neg hs]
    rw [hflush] at hturn ⊢
    exact h.turnOn hturn (List.take_prefix _ _) rfl (s.edge_keep m) h.solid

/-- A turn that changes the stack but holds the same. -/
theorem restack (h : Laid s) (hturn : Turn s t) (hpending : t.pending = s.pending)
    (hevents : t.events = s.events) (hheld : held t.stack = held s.stack)
    (htop : s.top = .comment → t.top = .comment) : Laid t := by
  refine h.turnOn hturn (hpending ▸ List.prefix_refl _)
    (by rw [State.given, State.given, hevents, hheld]) ?_ (by rw [hevents]; exact h.solid)
  obtain ⟨-, hposition, -⟩ := hturn.reading
  unfold State.edge
  rw [hposition, hpending]
  by_cases hs : s.top = .comment
  · exact Nat.le_of_eq (by rw [if_pos hs, if_pos (htop hs)])
  · rw [if_neg hs]
    split <;> omega

/-- What a call that is read holds is all that is held. -/
theorem held_arguments (h : Laid s) {call : PendingCall} {angles : Nat}
    (htop : s.top = .arguments call angles) :
    held s.stack = call.arguments ∧ AllOuter s.stack.tail := by
  have houter := h.layered.tail_outer (by rw [htop]; rfl)
  obtain ⟨frame, rest, hstack, hframe⟩ := State.stack_of_top htop (by simp)
  refine ⟨?_, houter⟩
  rw [hstack] at houter ⊢
  have hrest : held rest = [] := held_eq_nil houter
  show frame.construct.held ++ held rest = _
  rw [hframe, hrest, List.append_nil]
  rfl

/-- An argument ends: it is held with the others. -/
theorem split (h : Laid s) {call : PendingCall} (htop : s.top = .arguments call 0)
    (hn : 1 ≤ s.pending.length) : Laid (s.become (.arguments { call with
      arguments := call.arguments ++ s.lastArgument } 0)).settle := by
  obtain ⟨hheld, houter⟩ := h.held_arguments htop
  obtain ⟨hspread, hstands⟩ := h.lastArgument_spread (by simp [htop]) hn
  have hturn := Turn.split s call htop hn
  refine h.turnSettled hturn (by simp) _ ?_ hspread hstands (by simpa using h.solid)
  obtain ⟨frame, rest, hstack, -⟩ := State.stack_of_top htop (by simp)
  have hrest : held rest = [] := by
    rw [hstack] at houter
    exact held_eq_nil houter
  have hheld' : held (s.become (.arguments { call with
      arguments := call.arguments ++ s.lastArgument } 0)).settle.stack =
      call.arguments ++ s.lastArgument := by
    simp only [State.settle_stack, State.become, hstack]
    show (call.arguments ++ s.lastArgument) ++ held rest = _
    rw [hrest, List.append_nil]
  unfold State.given
  rw [hheld, hheld', State.settle_events, State.become_events, List.append_assoc]

/-- The arguments of a call end: what was held is said, with the last one. -/
theorem call (h : Laid s) {call : PendingCall} {angles : Nat}
    (htop : s.top = .arguments call angles) (hn : 1 ≤ s.pending.length) :
    Laid (s.pop.settle.emit
      (.call call.kind call.reference (call.arguments ++ s.lastArgument))) := by
  obtain ⟨hheld, houter⟩ := h.held_arguments htop
  obtain ⟨hspread, hstands⟩ := h.lastArgument_spread (by simp [htop]) hn
  have hsolid : Solid (.call call.kind call.reference (call.arguments ++ s.lastArgument)) :=
    trivial
  have hturn := Turn.call s call angles htop hn
  refine h.turnSettled hturn (by simp) _ ?_ hspread hstands (h.solid_emit (by simp) hsolid)
  have hrest : held s.pop.settle.stack = [] := by
    rw [State.settle_stack, State.pop_stack]
    exact held_eq_nil houter
  unfold State.given
  rw [State.quoted_emit, State.emit_stack, hheld, hrest, State.settle_events, State.pop_events,
    List.append_nil, List.append_assoc]
  rfl

/-- A comment begins: the text before it is handed out, and the rest is dealt
with by the comment. -/
theorem comment (h : Laid s) (ho : AllOuter s.stack) (n : Nat) :
    Laid ((s.flush n).push .comment) := by
  have hflush : Laid (s.flush n).settle := h.handOut (Nat.zero_le n)
  have hgiven : ((s.flush n).push .comment).given = (s.flush n).settle.given := by
    unfold State.given
    rw [State.push_stack]
    rfl
  refine ⟨(Turn.comment s n ho).layered h.layered, ?_, hflush.position, ?_, ?_, hflush.solid⟩
  · show (s.flush n).pending <+: (s.flush n).before
    rw [State.flush_pending, State.flush_before]
    exact h.pending
  · have hspread := hflush.spread
    rw [State.edge_settled (by simp)] at hspread
    rw [hgiven]
    exact hspread
  · rw [hgiven]
    exact hflush.stands

theorem turn (hturn : Turn s t) (h : Laid s) : Laid t := by
  have hsame (hs : t.stack = s.stack) (hp : t.pending = s.pending) (he : t.events = s.events) :
      Laid t :=
    h.restack hturn hp he (by rw [hs]) (by simp [State.top, hs])
  cases hturn with
  | keep n =>
      exact h.turnOn (.keep s n) (List.take_prefix _ _) rfl (s.edge_keep n) h.solid
  | handOut n m hm => exact h.handOut hm
  | markup elements closingTag => exact hsame rfl rfl rfl
  | report fault _ => exact hsame rfl rfl (State.report_events s fault)
  | deepen depth => exact hsame rfl rfl rfl
  | say body hbody =>
      refine h.emit ?_
      cases body <;> first | rfl | exact absurd hbody (by simp [Event.Body.isMark])
  | quote n body ho hn hbody =>
      obtain ⟨hspread, hstands⟩ := h.quotes_spread ho hn hbody
      refine h.turnSettled (.quote s n body ho hn hbody) (by simp) _ ?_ hspread hstands
        (h.solid_emit (by simp) (solid_of_quotes hbody))
      simp [State.given, State.quoted_emit, held_eq_nil ho]
  | leaveQuoting n body ho hn hbody =>
      obtain ⟨hspread, hstands⟩ := h.quotes_spread ho hn hbody
      refine h.turnSettled (.leaveQuoting s n body ho hn hbody) (by simp) _ ?_ hspread hstands
        (h.solid_emit (by simp) (solid_of_quotes hbody))
      simp [State.given, State.quoted_emit, held_eq_nil ho, held_eq_nil ho.tail]
  | split call htop hn => exact h.split htop hn
  | call call angles htop hn => exact h.call htop hn
  | comment n ho => exact h.comment ho n
  | commentEnd htop =>
      refine h.turnSettled (.commentEnd s htop) (by simp) [] ?_ (.nil s.edge_le_position)
        (by simp) (by simpa using h.solid)
      obtain ⟨frame, rest, hstack, hframe⟩ := State.stack_of_top htop (by simp)
      simp [State.given, hstack, held, hframe, Construct.held]
  | inside k hk hbegun htop =>
      refine h.restack (.inside s k hk hbegun htop) rfl rfl ?_ (fun hs => absurd hs htop)
      cases k <;> first | rfl | exact absurd hk (by simp [Construct.isInner])
  | enter k hk hc hbegun ho =>
      refine h.restack (.enter s k hk hc hbegun ho) rfl rfl ?_ ?_
      · cases k <;> first | rfl | exact absurd hbegun (by simp [Construct.begun])
      · intro hs
        obtain ⟨frame, rest, hstack, hframe⟩ := State.stack_of_top hs (by simp)
        have := ho frame (by simp [hstack])
        rw [hframe] at this
        exact absurd this (by decide)
  | leave hheld htop =>
      refine h.restack (.leave s hheld htop) (by simp) (by simp) ?_ (fun hs => absurd hs htop)
      rw [State.pop_stack]
      unfold State.top at hheld
      cases hstack : s.stack with
      | nil => rfl
      | cons frame rest =>
          rw [hstack] at hheld
          simp [held, hheld]
  | goOn k hbegun hheld =>
      refine h.restack (.goOn s k hbegun hheld) (by simp) (by simp) ?_ ?_
      · unfold State.become
        cases hstack : s.stack with
        | nil => rw [hstack]
        | cons frame rest =>
            simp only [State.top, hstack] at hheld
            simp [held, hheld]
      · intro hs
        have hk : k = .comment := (Construct.comment_of_begun hbegun).mpr hs
        obtain ⟨frame, rest, hstack, -⟩ := State.stack_of_top hs (by simp)
        simp [State.top, State.become, hstack, hk]

end Laid

theorem laid_upheld : Upheld Laid where
  layered _ h := h.layered
  advance s c h := by
    refine ⟨h.layered, ?_, ?_, ?_, ?_, h.solid⟩
    · exact List.prefix_cons_inj c |>.mpr h.pending
    · show s.position + c.utf8Size = c.utf8Size + byteSize s.before
      rw [h.position]
      omega
    · have hedge : s.edge ≤ (s.advance c).edge := by
        unfold State.edge
        rw [State.advance_top]
        split
        · exact Nat.le_add_right _ _
        · show _ ≤ s.position + c.utf8Size - (c.utf8Size + byteSize s.pending)
          omega
      have hspread := h.spread.append (.nil hedge)
      rwa [List.append_nil] at hspread
    · intro x hx
      show x.At (c :: s.before).reverse
      rw [List.reverse_cons]
      exact (h.stands x hx).append [c]
  turn := Laid.turn
  newline _ h :=
    have hsaid : Laid (State.emit _ .lineEnd) := h.emit rfl
    ⟨hsaid.layered, hsaid.pending, hsaid.position, hsaid.spread, hsaid.stands, hsaid.solid⟩

theorem Laid.finish {s : State} (h : Laid s) : Laid s.finish := by
  have hsettled : Laid s.settled := laid_upheld.settled h
  rw [State.finish_eq]
  split
  · rename_i problem _
    have hevents := s.settled.signal_problem_events problem
    have hgiven : (s.settled.signal (.problem problem)).given = s.settled.given := by
      unfold State.given
      rw [hevents]
      rfl
    have hsaid : Laid (s.settled.signal (.problem problem)) := by
      refine ⟨hsettled.layered, hsettled.pending, hsettled.position, ?_, ?_, ?_⟩
      · rw [hgiven]
        exact hsettled.spread
      · rw [hgiven]
        exact hsettled.stands
      · rw [hevents]
        exact hsettled.solid
    exact hsaid.emit rfl
  · exact hsettled.emit rfl

/-- **No byte is handed out twice, and nothing changes its place.** What the
events of a template quote stands in the source, and taken in the order in which
the events are said, each slice starts at the end of the one before it or behind
it. No run of text is empty, and parameters are read from what is quoted for
them. -/
theorem events_quote_in_order (setting : Setting) (source : List Char) :
    (∀ x ∈ quoted (events setting source), x.At source) ∧
      (quoted (events setting source)).Pairwise (fun x y => x.stop ≤ y.start) ∧
      (∀ e ∈ events setting source, ∀ run, e.body = .text run → run.text ≠ "") ∧
      ∀ e ∈ events setting source, ∀ declaration param, e.body = .param declaration param →
        Param.ofDeclaration declaration.text = .ok param := by
  have hend : Laid (State.run setting {} source).finish :=
    (laid_upheld.run setting Laid.start source).finish
  have hbefore : (State.run setting {} source).finish.before = source.reverse := by
    rw [State.finish_before (layered_upheld.run setting layered_start source), State.run_before]
  rw [events_eq]
  refine ⟨?_, ?_, ?_, ?_⟩
  · intro x hx
    have hat := hend.stands x (List.mem_append_left _ hx)
    rwa [hbefore, List.reverse_reverse] at hat
  · exact (List.pairwise_append.mp hend.spread.pairwise).1
  · intro e he run hbody
    have hsolid := hend.solid e he
    rw [hbody] at hsolid
    exact hsolid
  · intro e he declaration param hbody
    have hsolid := hend.solid e he
    rw [hbody] at hsolid
    exact hsolid

example : (quoted (events {} "a@tag.t(x, y)b".toList)).map (fun s => (s.start, s.text)) =
    [(0, "a"), (8, "x"), (11, "y"), (13, "b")] := by
  decide +kernel

end Scan

end Templating
