import Templating.Proofs.Scan.Cursor.Code
import Templating.Proofs.Scan.Lookback
import Templating.Proofs.Scan.Nesting
import Templating.Proofs.Text.Trim

/-!
# Directives by byte offsets

In text and in headers nothing but `last` matters for the reader of bytes, so each
directive is a chain of primitives that keep `last` where the pending text begins.
What ends there has begun, and the depth that is taken off has been added: this is
what the nesting of the constructs says.
-/

namespace Templating.Scan.Cursor

open Text (Slice octets cut? minus? byteSize IsAscii)

variable {source front after : List Char} {c : Char} {i n : Nat} {s : State} {u : Cursor}

/-! ## Finding directives -/

theorem ascii_word (d : Directive) : ∀ c ∈ d.word.toList, IsAscii c := by
  have hall : (Directive.all.all fun d => d.word.toList.all fun c => decide (IsAscii c)) = true := by
    decide +kernel
  intro c hc
  have hword := List.all_eq_true.mp hall d d.mem_all
  exact of_decide_eq_true (List.all_eq_true.mp hword c hc)

/-- **The directive that ends with a byte** is the one that ends with the
character. -/
theorem directive?_eq (hs : Here source front c after i s) :
    directive? source i = some (Directive.endingAt? s.before after) := by
  have hends : (fun d : Directive => d.word.toList.isSuffixOf (octets s.before.reverse)) =
      Directive.ends s.before :=
    funext fun d => Text.isSuffixOf_octets (ascii_word d)
  have hnext := Text.rel_twin_iff hs.next (show IsAscii 'i' by decide)
  unfold directive? Directive.endingAt?
  rw [hs.read, Option.bind_eq_bind, Option.bind_some, hends]
  generalize Directive.all.find? (Directive.ends s.before) = found?
  rcases found? with _ | d
  · rfl
  · cases d <;> first | rfl | exact congrArg some (if_congr hnext rfl rfl)

theorem narrow_of_directive {d : Directive} (h : Directive.endingAt? s.before after = some d) :
    Narrow d.width s := by
  have hbegins := List.isPrefixOf_iff_prefix.mp (Directive.ends_of_endingAt? h)
  have hlength := hbegins.length_le
  rw [List.length_reverse] at hlength
  refine ⟨hlength, fun c hc => ascii_word d c ?_⟩
  have htake := List.prefix_iff_eq_take.mp hbegins
  rw [List.length_reverse] at htake
  rw [Directive.width, ← htake] at hc
  exact List.mem_reverse.mp hc

/-! ## Declarations -/

theorem cut?_getD_of_le {start stop : Nat} (h : stop ≤ start) :
    ((cut? source start stop).map Slice.text).getD "" = "" := by
  cases hcut : cut? source start stop with
  | none => rfl
  | some x =>
      obtain ⟨front, cs, back, -, hstart, hstop, rfl⟩ := Text.cut?_eq_some_iff.mp hcut
      rw [Text.byteSize_append] at hstop
      cases cs with
      | nil => rfl
      | cons c cs =>
          have := c.utf8Size_pos
          rw [Text.byteSize_cons] at hstop
          omega

/-- Only blanks are pending for the reader when only blanks are pending for the
scanner. -/
theorem Level.onlyBlank (h : Level s u) (hs : Within source s) (hn : Narrow n s) :
    (Text.trim (((cut? source u.last (s.position - n)).map Slice.text).getD "").toList).isEmpty =
      s.onlyBlankBefore n := by
  unfold State.onlyBlankBefore
  rcases h.left hs hn with ⟨hleft, hlast⟩ | ⟨-, -, hcut⟩
  · rw [cut?_getD_of_le hlast, hleft]
    rfl
  · rw [hcut, Bool.eq_iff_iff, List.isEmpty_iff, List.isEmpty_iff, Text.trim_eq_nil_iff,
      Text.trim_eq_nil_iff]
    simp [State.slice, Slice.endingAt]

theorem Level.beginDeclaration (h : Level s u) (hs : Here source front c after i s)
    (hn : Narrow n s) {k : Construct} (hk : k.isOuter = true) :
    Leads Tracks (u.beginDeclaration? source i n k) (s.beginDeclaration n k) := by
  have done {t : State} {v : Cursor} (hv : Level t v) (ht : Here source front c after i t) :
      Tracks (t.settle.push k) ((v.settle (i + 1)).push k) :=
    ((hv.settledHere ht).push k).tracks_outer hk
  have hheader : u.state.headerOver = s.headerOver := by
    rw [h.state]
    rfl
  unfold beginDeclaration? State.beginDeclaration
  refine Leads.found (hs.back hn) ?_
  unfold flushContent?
  simp only
  rw [hheader, h.onlyBlank hs.within hn]
  split
  · exact (h.flush hs.within hn).bind fun v hv => .done (done hv (hs.flush n))
  · exact .done (done h hs)

/-- A declaration ends at an offset, behind which the scanner has read at most the
newline. -/
theorem Level.endDeclaration (h : Level s u) {stop : Nat}
    (hcut : cut? source u.last stop = some (s.slice n))
    (hstop : min (stop + 1) (octets source).length = s.position)
    (htop : s.top = .imported ∨ s.top = .param) :
    Leads Level (u.endDeclaration? source stop) (s.endDeclaration n) := by
  have hheader (v : Cursor) {t : State} (hv : Knows t v) : v.state.headerOver = t.headerOver := by
    rw [hv.state]
    rfl
  have htext : s.top ≠ .text := by
    rintro htext
    rw [htext] at htop
    simp at htop
  obtain ⟨frame, rest, hstack, -⟩ := State.stack_of_top rfl htext
  obtain ⟨v, hv, hknows, -, -⟩ := h.toKnows.pop (by simp [hstack]) (fun h => absurd h htext)
  have hsettled := hknows.settled
  rw [State.pop_position, ← hstop] at hsettled
  unfold endDeclaration? State.endDeclaration
  simp only
  refine Leads.found hcut ?_
  rw [hv]
  simp only [Option.bind_eq_bind, Option.bind_some]
  rw [hheader _ hsettled.toKnows, h.top]
  split
  · exact .done (hsettled.report _)
  · split
    · rw [Param.ofDeclaration?_eq, Option.bind_some]
      cases Param.ofDeclaration (s.slice n).trim.text with
      | ok p => exact .done (hsettled.say _)
      | error fault => exact .done (hsettled.report _)
    · exact .done (hsettled.say _)

/-- The construct of a declaration lies in text, so what is left does as well. -/
theorem Tracks.endDeclaration (h : Tracks s u) (hl : Layered s.stack) {stop : Nat}
    (hcut : cut? source (s.position - byteSize s.pending) stop = some (s.slice n))
    (hstop : min (stop + 1) (octets source).length = s.position)
    (htop : s.top = .imported ∨ s.top = .param) :
    Leads Tracks (u.endDeclaration? source stop) (s.endDeclaration n) := by
  have houter : s.top.isOuter = true :=
    Construct.isOuter_of_isDeclaration (Construct.isDeclaration_of htop)
  have hlevel := h.level houter
  rw [← hlevel.last] at hcut
  refine (hlevel.endDeclaration hcut hstop htop).mono fun v hv => hv.tracks_outer (AllOuter.top ?_)
  rw [State.endDeclaration_stack]
  exact (hl.all_outer houter).tail

/-! ## Blocks -/

theorem Level.begin (h : Level s u) (hs : Here source front c after i s) (hn : Narrow n s)
    {k : Construct} (hk : k.isOuter = true) :
    Leads Tracks (u.begin? source i n k) (s.begin n k) := by
  unfold begin? State.begin
  exact (h.release hs hn).bind fun v hv => .done ((hv.push k).tracks_outer hk)

theorem Level.beginCall (h : Level s u) (hs : Here source front c after i s) (hn : Narrow n s)
    (kind : CallKind) :
    Leads Tracks (u.beginCall? source i n kind) (s.begin n (.reference kind)) := by
  unfold beginCall? State.begin
  refine (h.release hs hn).bind fun v hv => .done ⟨⟨?_, ?_⟩, ?_⟩
  · show v.state.push _ = _
    rw [hv.state]
    rfl
  · show (v.starts.length + 1) = _
    rw [hv.starts]
    rfl
  · show i + 1 = _
    rw [State.push_pending, State.settle_pending, hs.index]
    show s.position = (s.flush n).position - 0
    rw [State.flush_position, Nat.sub_zero]

theorem Level.beginComment (h : Level s u) (hs : Here source front c after i s)
    (hn : Narrow n s) :
    Leads Tracks (u.beginComment? source i n) ((s.flush n).push .comment) := by
  unfold beginComment?
  refine Leads.found (hs.back hn) ?_
  exact (h.flush hs.within hn).bind fun v hv => .done ((hv.push .comment).tracks rfl rfl)

theorem Level.reportUnbalanced (h : Level s u) (ho : AllOuter s.stack) (closing : Directive)
    (opening : String) :
    Leads Tracks (some (u.reportUnbalanced closing opening)) (s.reportUnbalanced closing opening) :=
  .done ((h.report _).tracks_outer ho.top)

theorem Knows.inTextOf (h : Knows s u) (sort : Construct → Bool) :
    u.state.inTextOf sort = s.inTextOf sort := by
  rw [h.state]
  rfl

/-- The text that ends is on the stack, and it has added to the depth. -/
theorem Level.leaveText (h : Level s u) (hs : Here source front c after i s) (hn : Narrow n s)
    (hnested : Nested s) {sort : Construct → Bool} (htext : s.inTextOf sort = true) :
    Leads Level (u.leaveText? source i n) (s.flush n).settle.pop := by
  obtain ⟨t, opener, rest, hstack, ht, -⟩ := State.inTextOf_eq_true s htext
  unfold leaveText?
  refine (h.release hs hn).bind fun v hv => hv.pop (by simp [hstack]) fun htop => ?_
  rw [State.settle_depth, State.flush_depth]
  rw [State.settle_top, State.flush_top] at htop
  exact hnested.one_le_depth (by simp [hstack]) htop

/-- The construct around a text that has ended can end as well. -/
theorem Level.popOpener {t : State} {v : Cursor} (hv : Level t v) {sort : Construct → Bool}
    (htext : s.inTextOf sort = true) (hsort : sort .text = false)
    (hstack : t.stack = s.stack.tail) : Leads Level v.pop? t.pop := by
  obtain ⟨frame, opener, rest, hframes, -, hopener⟩ := State.inTextOf_eq_true s htext
  rw [hframes, List.tail_cons] at hstack
  refine hv.pop (by simp [hstack]) fun htop => ?_
  have htext : opener.construct = .text := by
    unfold State.top at htop
    rwa [hstack] at htop
  rw [htext, hsort] at hopener
  cases hopener

theorem Level.conditionElse (h : Level s u) (hs : Here source front c after i s)
    (hn : Narrow n s) (ho : AllOuter s.stack) (hnested : Nested s) :
    Leads Tracks (u.conditionElse? source i n) (s.conditionElse n) := by
  unfold conditionElse? State.conditionElse
  rw [h.toKnows.inTextOf]
  split
  · rename_i htext
    exact (h.leaveText hs hn hnested htext).bind fun v hv =>
      .done (((hv.say _).push .text).tracks_outer rfl)
  · exact h.reportUnbalanced ho _ _

theorem Level.conditionElseIf (h : Level s u) (hs : Here source front c after i s)
    (hn : Narrow n s) (ho : AllOuter s.stack) (hnested : Nested s) :
    Leads Tracks (u.conditionElseIf? source i n) (s.conditionElseIf n) := by
  unfold conditionElseIf? State.conditionElseIf
  rw [h.toKnows.inTextOf]
  split
  · rename_i htext
    refine (h.leaveText hs hn hnested htext).bind fun v hv => ?_
    exact (hv.popOpener htext rfl (by simp)).bind fun w hw =>
      .done ((hw.push .conditionElseIf).tracks_outer rfl)
  · exact h.reportUnbalanced ho _ _

theorem Level.endBlock (h : Level s u) (hs : Here source front c after i s) {closing : Directive}
    (hn : Narrow closing.width s) (ho : AllOuter s.stack) (hnested : Nested s)
    (opening : Directive) {sort : Construct → Bool} (hsort : sort .text = false)
    (body : Event.Body) :
    Leads Tracks (u.endBlock? source i closing opening sort body)
      (s.endBlock closing opening sort body) := by
  unfold endBlock? State.endBlock
  rw [h.toKnows.inTextOf]
  split
  · rename_i htext
    refine (h.leaveText hs hn hnested htext).bind fun v hv => ?_
    refine ((hv.say body).popOpener htext hsort (by simp)).mono fun w hw => ?_
    refine hw.tracks_outer (AllOuter.top ?_)
    simpa using ho.tail.tail
  · exact h.reportUnbalanced ho _ _

/-! ## Calls and slots -/

theorem Tracks.beginArguments (h : Tracks s u) (hs : Here source front c after i s)
    {kind : CallKind} (htop : s.top = .reference kind) :
    Leads Tracks (u.beginArguments? source i kind) (s.beginArguments kind) := by
  obtain ⟨frame, rest, hstack, -⟩ := State.stack_of_top htop (by simp)
  have hname : (s.slice 1).text.toList = (s.pending.drop 1).reverse := by
    simp [State.slice, Slice.endingAt]
  have restart {t : State} {v : Cursor} (hv : Knows t v) (hframes : t.stack = s.stack)
      (hposition : t.position = s.position) (k : Construct) (hk : k.isCall = true) :
      Tracks (t.settle.become k) ((v.settle (i + 1)).restart k (i + 1)) := by
    have hrestart := (hv.settle 0 (i + 1)).restart (by simp [State.keep, hframes, hstack]) hk
    rw [State.become_settle] at hrestart
    show Tracks _ ((v.settle (i + 1)).restart k (i + 1))
    rw [hs.index, ← hposition] at hrestart ⊢
    exact hrestart
  unfold beginArguments? State.beginArguments
  rw [h.head_starts (by rw [htop]; rfl)]
  simp only [Option.bind_eq_bind, Option.bind_some]
  rw [hs.cut, Option.bind_some, hname]
  split
  · exact .done (restart (h.toKnows.report _) rfl rfl _ rfl)
  · exact .done (restart h.toKnows rfl rfl _ rfl)

theorem Level.endLayout (h : Level s u) (hs : Here source front c after i s)
    (ho : AllOuter s.stack) : Leads Tracks (u.endLayout? i) s.endLayout := by
  unfold endLayout? State.endLayout
  rw [h.top]
  split
  · rename_i htop
    obtain ⟨frame, rest, hstack, -⟩ := State.stack_of_top htop (by simp)
    refine (h.pop (by simp [hstack]) (by simp [htop])).bind fun v hv => ?_
    refine .done (((hv.settledHere hs.pop).say _).tracks_outer (AllOuter.top ?_))
    simpa using ho.tail
  · exact h.reportUnbalanced ho _ _

theorem Level.beginSlot (h : Level s u) (hs : Here source front c after i s)
    (ho : AllOuter s.stack) : Tracks s.beginSlot (u.beginSlot i) := by
  have hsettled := h.settledHere hs
  unfold Cursor.beginSlot State.beginSlot
  rw [h.top]
  split
  · exact (hsettled.push .slot).tracks_outer rfl
  · exact (h.report _).tracks_outer ho.top

/-- Slots change the depth besides. -/
theorem Level.deepen (h : Level s u) (f : Nat → Nat) :
    Level { s with depth := f s.depth }
      { u with state := { u.state with depth := f u.state.depth } } :=
  ⟨⟨by show { u.state with depth := f u.state.depth } = _; rw [h.state]; rfl, h.starts⟩, h.last⟩

theorem Level.beginSlotText (h : Level s u) (hs : Here source front c after i s) :
    Leads Tracks (u.beginSlotText? source i) s.beginSlotText := by
  have hsettled := h.settledHere hs
  unfold beginSlotText? State.beginSlotText
  refine Leads.found (a := s.slice 1) ?_ (.done ?_)
  · rw [h.last]
    exact hs.cut
  · rw [State.emit_settle]
    exact (((hsettled.say (.slotBegin (s.slice 1).trim)).push .text).deepen (· + 2)).tracks_outer rfl

theorem Level.endSlot (h : Level s u) (hs : Here source front c after i s) (hn : Narrow n s)
    (ho : AllOuter s.stack) (hnested : Nested s) :
    Leads Tracks (u.endSlot? source i n) (s.endSlot n) := by
  unfold endSlot? State.endSlot
  rw [h.toKnows.inTextOf]
  split
  · rename_i htext
    refine (h.leaveText hs hn hnested htext).bind fun v hv => ?_
    refine (hv.popOpener htext rfl (by simp)).bind fun w hw => ?_
    have hdepth : 2 ≤ w.state.depth := by
      obtain ⟨t, opener, rest, hstack, ht, hopener⟩ := State.inTextOf_eq_true s htext
      have hthree := hnested.three_le_depth htext
      have hslot : (s.flush n).settle.pop.top ≠ .text := by
        simp only [beq_iff_eq] at hopener
        simp [State.top, hstack, hopener]
      rw [hw.depth, State.pop_depth, if_pos (Or.inr hslot), State.pop_depth]
      simp only [State.settle_depth, State.flush_depth]
      split <;> omega
    refine Leads.found (Text.minus?_of_le hdepth) (.done ?_)
    refine ((hw.deepen (· - 2)).say .slotEnd).tracks_outer (AllOuter.top ?_)
    simpa using ho.tail.tail
  · exact h.reportUnbalanced ho _ _

theorem Level.endRender (h : Level s u) (hs : Here source front c after i s)
    (ho : AllOuter s.stack) (htop : s.top = .render) (kind : Kind) :
    Leads Tracks (u.endRender? source i kind) (s.endRender kind) := by
  obtain ⟨frame, rest, hstack, -⟩ := State.stack_of_top htop (by simp)
  have hsettled := h.settledHere hs
  have houter : AllOuter s.settle.pop.stack := by
    simpa using ho.tail
  unfold endRender? State.endRender
  refine Leads.found (a := s.slice 1) ?_ ?_
  · rw [h.last]
    exact hs.cut
  refine (hsettled.pop (by simp [hstack]) (by simp [htop])).bind fun v hv => ?_
  simp only
  split
  · exact .done ((hv.say _).tracks_outer (by simpa using houter.top))
  · exact .done ((hv.report _).tracks_outer houter.top)

/-! ## All directives -/

theorem Level.obey (h : Level s u) (hs : Here source front c after i s) {d : Directive}
    (hn : Narrow d.width s) (ho : AllOuter s.stack) (hnested : Nested s) :
    Leads Tracks (u.obey? source i d) (s.obey d) := by
  unfold obey? State.obey
  cases d with
  | comment => exact h.beginComment hs hn
  | imported => exact h.beginDeclaration hs hn rfl
  | param => exact h.beginDeclaration hs hn rfl
  | expression escaping => exact h.begin hs hn rfl
  | statement => exact h.begin hs hn rfl
  | conditionBegin => exact h.begin hs hn rfl
  | conditionElse => exact h.conditionElse hs hn ho hnested
  | conditionElseIf => exact h.conditionElseIf hs hn ho hnested
  | conditionEnd => exact h.endBlock hs hn ho hnested _ rfl _
  | loopBegin => exact h.begin hs hn rfl
  | loopEnd => exact h.endBlock hs hn ho hnested _ rfl _
  | call kind => exact h.beginCall hs hn kind
  | layoutEnd => exact h.endLayout hs ho
  | slotBegin => exact .done (h.beginSlot hs ho)
  | slotEnd => exact h.endSlot hs hn ho hnested
  | render => exact h.begin hs hn rfl

theorem Level.parenthesisBegins (h : Level s u) (hs : Here source front c after i s)
    (ho : AllOuter s.stack) : Tracks s.parenthesisBegins (u.parenthesisBegins i) := by
  have hsettled := h.settledHere hs
  have hstay : Tracks s.settle (u.settle (i + 1)) := hsettled.tracks_outer ho.top
  unfold Cursor.parenthesisBegins State.parenthesisBegins
  rw [h.top]
  cases htop : s.top with
  | condition => exact hstay.push_inner rfl
  | conditionElseIf => exact hstay.push_inner rfl
  | loop => exact (hsettled.push _).tracks_outer rfl
  | slot => exact hstay
  | render => exact hstay
  | _ => exact h.tracks_outer ho.top

theorem Level.parenthesisEnds (h : Level s u) (hs : Here source front c after i s)
    (ho : AllOuter s.stack) (kind : Kind) :
    Leads Tracks (u.parenthesisEnds? source i kind) (s.parenthesisEnds kind) := by
  unfold parenthesisEnds? State.parenthesisEnds
  rw [h.top]
  cases htop : s.top with
  | slot => exact h.beginSlotText hs
  | render => exact h.endRender hs ho htop kind
  | _ => exact .done (h.tracks_outer ho.top)

end Templating.Scan.Cursor
