import Templating.Proofs.Scan.Cursor
import Templating.Proofs.Scan.Quotes

/-!
# Following the scanner by byte offsets

A reader of bytes follows the scanner: it knows what the scanner knows, and one of
its offsets is where the scanner's pending text begins. In text and in headers that
is `last`; in a call it is where the name or the argument starts, also inside
brackets and strings there. Each primitive of the reader keeps up with the one of
the scanner.
-/

namespace Templating.Scan

open Text (Slice octets cut? minus? byteSize IsAscii Twin)

namespace State

/-- What the scanner knows apart from the text it has read. -/
def textless (s : State) : State :=
  { s with before := [], pending := [], position := 0 }

section Textless

variable (s : State)

theorem textless_emit (body : Event.Body) : (s.emit body).textless = s.textless.emit body := by
  rw [emit_eq, emit_eq]
  rfl

theorem textless_pop : s.pop.textless = s.textless.pop := by
  unfold pop textless
  cases h : s.stack <;> simp [h]

theorem textless_become (k : Construct) : (s.become k).textless = s.textless.become k := by
  unfold become textless
  cases h : s.stack <;> simp [h]

theorem become_settle (k : Construct) : (s.become k).settle = s.settle.become k := by
  unfold become settle keep
  cases h : s.stack <;> simp [h]

theorem textless_endLine (c : Char) : (s.endLine c).textless = s.textless.endLine c := by
  unfold endLine
  split
  · rw [← textless_emit]
    rfl
  · rfl

end Textless

/-- Going on with the same construct changes nothing. -/
theorem become_top {s : State} {k : Construct} (h : s.top = k) (hk : k ≠ .text) : s.become k = s := by
  obtain ⟨frame, rest, hstack, rfl⟩ := stack_of_top h hk
  rw [become, hstack]
  show { s with stack := frame :: rest } = s
  rw [← hstack]

end State

/-! ## Where pending text begins -/

/-- The construct is a call, up to the end of its arguments. -/
def Construct.isCall : Construct → Bool
  | reference _ | arguments .. => true
  | _ => false

/-- Where the text starts that the innermost construct is about, not counting
brackets and strings. -/
def markOf (last : Nat) : List Frame → List Nat → Nat
  | frame :: stack, start :: starts =>
      if frame.construct.isCall then start
      else if frame.construct.isInner then markOf last stack starts
      else last
  | _, _ => last

namespace Cursor

def mark (u : Cursor) : Nat :=
  markOf u.last u.state.stack u.starts

/-- The reader knows what the scanner knows. -/
structure Knows (s : State) (u : Cursor) : Prop where
  state : u.state = s.textless
  starts : u.starts.length = s.stack.length

/-- And `last` is where the pending text begins. -/
structure Level (s : State) (u : Cursor) : Prop extends Knows s u where
  last : u.last = s.position - byteSize s.pending

/-- And its mark is where the pending text begins. -/
structure Tracks (s : State) (u : Cursor) : Prop extends Knows s u where
  mark : u.mark = s.position - byteSize s.pending

/-- The step of the reader does not go wrong, and leads to a reader that is in the
relation to the state. -/
def Leads (R : State → Cursor → Prop) (x : Option Cursor) (s : State) : Prop :=
  ∃ u, x = some u ∧ R s u

section Leads

variable {R P : State → Cursor → Prop} {s t : State} {u : Cursor}

theorem Leads.done (h : R s u) : Leads R (some u) s :=
  ⟨u, rfl, h⟩

theorem Leads.bind {x : Option Cursor} (h : Leads R x s) {f : Cursor → Option Cursor}
    (hf : ∀ u, R s u → Leads P (f u) t) : Leads P (x >>= f) t := by
  obtain ⟨u, rfl, hu⟩ := h
  exact hf u hu

/-- A part of a step that finds a value. -/
theorem Leads.found {α : Type} {x : Option α} {a : α} (hx : x = some a)
    {f : α → Option Cursor} (hf : Leads P (f a) t) : Leads P (x >>= f) t := by
  rw [hx]
  exact hf

theorem Leads.mono {x : Option Cursor} (h : Leads R x s) (hR : ∀ u, R s u → P t u) :
    Leads P x t := by
  obtain ⟨u, hx, hu⟩ := h
  exact ⟨u, hx, hR u hu⟩

end Leads

section Relations

variable {s : State} {u : Cursor}

theorem Knows.top (h : Knows s u) : u.top = s.top := by
  show u.state.top = s.top
  rw [h.state]
  rfl

theorem Knows.depth (h : Knows s u) : u.state.depth = s.depth := by
  rw [h.state]
  rfl

theorem mark_of_top (hinner : u.top.isInner = false) (hcall : u.top.isCall = false) :
    u.mark = u.last := by
  unfold top State.top at hinner hcall
  unfold mark
  cases hstack : u.state.stack with
  | nil => rfl
  | cons frame stack =>
      rw [hstack] at hinner hcall
      cases u.starts with
      | nil => rfl
      | cons start starts =>
          simp only at hinner hcall
          simp [markOf, hinner, hcall]

theorem isCall_of_isOuter {k : Construct} (h : k.isOuter = true) : k.isCall = false := by
  cases k <;> first | rfl | exact absurd h (by simp [Construct.isOuter])

theorem Tracks.level (h : Tracks s u) (hs : s.top.isOuter = true) : Level s u := by
  have hmark : u.mark = u.last := mark_of_top
    (by rw [h.top]; exact Construct.not_isInner_of_isOuter hs)
    (by rw [h.top]; exact isCall_of_isOuter hs)
  exact ⟨h.toKnows, hmark ▸ h.mark⟩

theorem Level.tracks (h : Level s u) (hinner : s.top.isInner = false)
    (hcall : s.top.isCall = false) : Tracks s u := by
  have hmark : u.mark = u.last := mark_of_top (by rwa [h.top]) (by rwa [h.top])
  exact ⟨h.toKnows, hmark.trans h.last⟩

end Relations

/-! ## Primitives -/

section Primitives

variable {s : State} {u : Cursor}

theorem Knows.say (h : Knows s u) (body : Event.Body) : Knows (s.emit body) (u.say body) :=
  ⟨by rw [State.textless_emit, ← h.state]; rfl, by rw [State.emit_stack]; exact h.starts⟩

theorem Knows.report (h : Knows s u) (fault : Fault) : Knows (s.report fault) (u.report fault) :=
  ⟨by show u.state.report fault = _; rw [h.state]; rfl, h.starts⟩

theorem Knows.signal (h : Knows s u) (x : Signal) :
    Knows (s.signal x) { u with state := u.state.signal x } :=
  ⟨by show u.state.signal x = _; rw [h.state]; rfl, h.starts⟩

theorem Knows.push (h : Knows s u) (k : Construct) : Knows (s.push k) (u.push k) :=
  ⟨by show u.state.push k = _; rw [h.state]; rfl, by
    show (0 :: u.starts).length = _
    rw [List.length_cons, h.starts]
    rfl⟩

theorem Knows.settle (h : Knows s u) (n offset : Nat) : Knows (s.keep n) (u.settle offset) :=
  ⟨h.state, h.starts⟩

theorem Level.say (h : Level s u) (body : Event.Body) : Level (s.emit body) (u.say body) :=
  ⟨h.toKnows.say body, by rw [State.emit_position, State.emit_pending]; exact h.last⟩

theorem Level.report (h : Level s u) (fault : Fault) : Level (s.report fault) (u.report fault) :=
  ⟨h.toKnows.report fault, h.last⟩

theorem Level.push (h : Level s u) (k : Construct) : Level (s.push k) (u.push k) :=
  ⟨h.toKnows.push k, h.last⟩

/-- A construct that has begun can end, and if it is text it has added to the
depth. -/
theorem Knows.pop (h : Knows s u) (hstack : s.stack ≠ []) (hdepth : s.top = .text → 1 ≤ s.depth) :
    ∃ v, u.pop? = some v ∧ Knows s.pop v ∧ v.last = u.last ∧ v.starts = u.starts.tail := by
  have hchecked : ¬ (u.state.stack = [] ∨ u.top = .text ∧ u.state.depth = 0) := by
    rw [h.top, h.state]
    rintro (hnil | ⟨htext, hzero⟩)
    · exact hstack hnil
    · have hone := hdepth htext
      have hzero' : s.depth = 0 := hzero
      omega
  refine ⟨_, if_neg hchecked, ⟨?_, ?_⟩, rfl, rfl⟩
  · show u.state.pop = _
    rw [h.state, State.textless_pop]
  · show u.starts.tail.length = _
    rw [State.pop_stack, List.length_tail, List.length_tail, h.starts]

theorem Level.pop (h : Level s u) (hstack : s.stack ≠ []) (hdepth : s.top = .text → 1 ≤ s.depth) :
    Leads Level u.pop? s.pop := by
  obtain ⟨v, hv, hknows, hlast, -⟩ := h.toKnows.pop hstack hdepth
  refine ⟨v, hv, hknows, ?_⟩
  rw [hlast, h.last, State.pop_position, State.pop_pending]

/-- Nothing is pending, and `last` is where the scanner is. -/
theorem Knows.settled (h : Knows s u) : Level s.settle (u.settle s.position) :=
  ⟨h.settle 0 _, by
    rw [State.settle_pending]
    rfl⟩

end Primitives

end Cursor

/-! ## The place in the source -/

/-- The last `n` characters that have been read are ASCII characters. -/
structure Narrow (n : Nat) (s : State) : Prop where
  length : n ≤ s.before.length
  ascii : ∀ c ∈ s.before.take n, IsAscii c

/-- The state has read a beginning of the source, and what is pending is the end of
that. -/
structure Within (source : List Char) (s : State) : Prop where
  pending : s.pending <+: s.before
  position : s.position = byteSize s.before
  source : s.before.reverse <+: source

/-- The state has just read the ASCII character `c` of the source, at the byte
`i`. -/
structure Here (source front : List Char) (c : Char) (after : List Char) (i : Nat) (s : State) :
    Prop where
  source : source = front.reverse ++ c :: after
  place : i = byteSize front
  ascii : IsAscii c
  before : s.before = c :: front
  position : s.position = byteSize s.before
  pending : s.pending <+: s.before
  fresh : s.pending ≠ []

theorem byteSize_of_ascii {cs : List Char} (h : ∀ c ∈ cs, IsAscii c) : byteSize cs = cs.length := by
  induction cs with
  | nil => rfl
  | cons c cs ih =>
      rw [Text.byteSize_cons, Text.utf8Size_ascii (h c (by simp)), List.length_cons,
        ih fun x hx => h x (by simp [hx])]
      omega

section Place

variable {source front after : List Char} {c : Char} {i n : Nat} {s : State}

theorem Narrow.byteSize (h : Narrow n s) : byteSize (s.before.take n) = n := by
  rw [byteSize_of_ascii h.ascii, List.length_take, Nat.min_eq_left h.length]

theorem Here.within (h : Here source front c after i s) : Within source s := by
  refine ⟨h.pending, h.position, after, ?_⟩
  rw [h.before, h.source]
  simp

theorem Laid.within (h : Laid s) (hbefore : s.before = source.reverse) : Within source s :=
  ⟨h.pending, h.position, [], by rw [hbefore, List.reverse_reverse, List.append_nil]⟩

/-- Once the source has been read the position is behind its last byte. -/
theorem Laid.length_octets (h : Laid s) (hbefore : s.before = source.reverse) :
    (octets source).length = s.position := by
  rw [Text.length_octets, h.position, hbefore, Text.byteSize_reverse]

/-- The offset behind the character is the position of the scanner. -/
theorem Here.index (h : Here source front c after i s) : i + 1 = s.position := by
  rw [h.position, h.before, Text.byteSize_cons, Text.utf8Size_ascii h.ascii, h.place]
  omega

theorem Here.narrow (h : Here source front c after i s) : Narrow 1 s := by
  refine ⟨by rw [h.before]; simp, ?_⟩
  rw [h.before]
  simpa using h.ascii

theorem Here.one_le (h : Here source front c after i s) : 1 ≤ s.pending.length :=
  List.length_pos_iff.mpr h.fresh

/-- **What the scanner cuts from the pending text, the reader cuts from the
source.** -/
theorem Within.cut (h : Within source s) (hn : n ≤ s.pending.length) :
    cut? source (s.position - byteSize s.pending) (s.position - byteSize (s.pending.take n)) =
      some (s.slice n) := by
  obtain ⟨hstart, hstop, front, back, hbefore, hfront⟩ := State.slice_pending h.pending h.position hn
  obtain ⟨after, hsource⟩ := h.source
  rw [← hstart, ← hstop]
  refine Text.cut?_eq_some_iff.mpr
    ⟨front, (s.slice n).text.toList, back ++ after, ?_, hfront, ?_, ?_⟩
  · rw [← hsource, hbefore]
    simp
  · rw [Text.byteSize_append, ← hfront]
    rfl
  · rw [String.ofList_toList]

theorem Within.take_pending (h : Within source s) (hn : n ≤ s.pending.length) :
    s.pending.take n = s.before.take n := by
  obtain ⟨gone, hgone⟩ := h.pending
  rw [← hgone, List.take_append_of_le_length hn]

theorem Within.byteSize_le (h : Within source s) : byteSize s.pending ≤ s.position := by
  obtain ⟨gone, hgone⟩ := h.pending
  rw [h.position, ← hgone, Text.byteSize_append]
  omega

theorem Here.cut (h : Here source front c after i s) :
    cut? source (s.position - byteSize s.pending) i = some (s.slice 1) := by
  have hcut := h.within.cut h.one_le
  have hindex := h.index
  rw [h.within.take_pending h.one_le, h.narrow.byteSize] at hcut
  rwa [show s.position - 1 = i by omega] at hcut

theorem Here.congr (hs : Here source front c after i s) {t : State} (hbefore : t.before = s.before)
    (hposition : t.position = s.position) (hpending : t.pending = s.pending) :
    Here source front c after i t := by
  refine ⟨hs.source, hs.place, hs.ascii, hbefore.trans hs.before, ?_, ?_, ?_⟩
  · rw [hposition, hbefore]
    exact hs.position
  · rw [hpending, hbefore]
    exact hs.pending
  · rw [hpending]
    exact hs.fresh

theorem Here.pop (hs : Here source front c after i s) : Here source front c after i s.pop :=
  hs.congr s.pop_before s.pop_position s.pop_pending

theorem Here.flush (hs : Here source front c after i s) (n : Nat) :
    Here source front c after i (s.flush n) :=
  hs.congr (s.flush_before n) (s.flush_position n) (s.flush_pending n)

/-- The byte before the place is one with the character before it. -/
theorem Here.byteBefore (hs : Here source front c after i s) : ∃ x?,
    Text.byteBefore? (octets source) i = some x? ∧ Option.Rel Twin x? front.head? := by
  rw [hs.source, hs.place]
  exact Text.byteBefore?_octets front (c :: after)

theorem Here.read (hs : Here source front c after i s) :
    Text.firstBytes? (octets source) (i + 1) = some (octets s.before.reverse) := by
  have hread := Text.firstBytes?_octets s.before.reverse after
  rw [Text.byteSize_reverse, ← hs.position, ← hs.index, hs.before] at hread
  rw [hs.before, hs.source]
  simpa using hread

theorem Here.rest (hs : Here source front c after i s) :
    Text.restBytes? (octets source) (i + 1) = some (octets after) := by
  have hrest := Text.restBytes?_octets s.before.reverse after
  rw [Text.byteSize_reverse, ← hs.position, ← hs.index, hs.before] at hrest
  rw [hs.source]
  simpa using hrest

/-- The next byte is one with the next character. -/
theorem Here.next (hs : Here source front c after i s) :
    Option.Rel Twin (octets source)[i + 1]? after.head? := by
  have hnext := Text.getElem?_octets s.before.reverse after
  rw [Text.byteSize_reverse, ← hs.position, ← hs.index, hs.before] at hnext
  have hsource : source = (c :: front).reverse ++ after := by
    rw [hs.source]
    simp
  rw [hsource, hnext]
  exact Text.twin_head after

theorem Here.previous (hs : Here source front c after i s) : s.previous? = front.head? := by
  unfold State.previous?
  rw [hs.before]
  cases front <;> rfl

/-- The place where a directive begins. -/
theorem Here.back (hs : Here source front c after i s) (hn : Narrow n s) :
    minus? (i + 1) n = some (s.position - n) := by
  have hindex := hs.index
  have hle : n ≤ i + 1 := by
    have := hn.byteSize
    have := State.byteSize_take_le s.before n
    have := hs.position
    omega
  rw [Text.minus?_of_le hle, hindex]

end Place

theorem AllOuter.top {s : State} (h : AllOuter s.stack) : s.top.isOuter = true := by
  unfold State.top
  cases hstack : s.stack with
  | nil => rfl
  | cons frame rest => exact h frame (by simp [hstack])

namespace Cursor

variable {source front after : List Char} {c : Char} {i n : Nat} {s : State} {u : Cursor}

/-- Some of the pending text is left before its last `n` characters just when `last`
is before the place where they begin, and then it can be cut. -/
theorem Level.left (h : Level s u) (hs : Within source s) (hn : Narrow n s) :
    s.pending.drop n = [] ∧ s.position - n ≤ u.last ∨
      s.pending.drop n ≠ [] ∧ u.last < s.position - n ∧
        cut? source u.last (s.position - n) = some (s.slice n) := by
  have hpending := hs.byteSize_le
  rw [h.last]
  by_cases hleft : s.pending.drop n = []
  · -- Only ASCII characters are pending, at most `n` of them.
    have hlength : s.pending.length ≤ n := List.drop_eq_nil_iff.mp hleft
    have hascii : byteSize s.pending = s.pending.length := by
      refine byteSize_of_ascii fun c hc => hn.ascii c ?_
      have hsame := hs.take_pending (Nat.le_refl _)
      rw [List.take_length] at hsame
      rw [hsame] at hc
      exact List.take_subset_take_left _ hlength hc
    exact Or.inl ⟨hleft, by omega⟩
  · have hlength : n ≤ s.pending.length := by
      have := List.length_pos_iff.mpr hleft
      rw [List.length_drop] at this
      omega
    have hsize : byteSize (s.pending.take n) = n := by
      rw [hs.take_pending hlength, hn.byteSize]
    have hsplit := congrArg byteSize (List.take_append_drop n s.pending)
    rw [Text.byteSize_append] at hsplit
    have hdrop : 0 < byteSize (s.pending.drop n) := by
      obtain ⟨c, cs, hcs⟩ := List.exists_cons_of_ne_nil hleft
      have := c.utf8Size_pos
      rw [hcs, Text.byteSize_cons]
      omega
    have hcut := hs.cut hlength
    rw [hsize] at hcut
    exact Or.inr ⟨hleft, by omega, hcut⟩

/-- Handing out text keeps up. -/
theorem Level.flush (h : Level s u) (hs : Within source s) (hn : Narrow n s) :
    Leads Level (u.flush? source (s.position - n)) (s.flush n) := by
  unfold flush? State.flush
  rw [h.top]
  by_cases htext : s.top = .text
  · rcases h.left hs hn with ⟨hleft, hlast⟩ | ⟨hleft, hlast, hcut⟩
    · rw [if_neg (by omega), if_neg (by simp [hleft])]
      exact .done h
    · rw [if_pos ⟨htext, hlast⟩, if_pos ⟨htext, hleft⟩, hcut]
      exact .done (h.say _)
  · rw [if_neg (by simp [htext]), if_neg (by simp [htext])]
    exact .done h

/-- Nothing is pending behind the character that has just been read. -/
theorem Knows.settledHere (h : Knows s u) (hs : Here source front c after i s) :
    Level s.settle (u.settle (i + 1)) := by
  rw [hs.index]
  exact h.settled

/-- A directive hands out the text before it. -/
theorem Level.release (h : Level s u) (hs : Here source front c after i s) (hn : Narrow n s) :
    Leads Level (u.release? source i n) (s.flush n).settle := by
  unfold release?
  refine Leads.found (hs.back hn) ?_
  exact (h.flush hs.within hn).bind fun v hv => .done (hv.settledHere (hs.flush n))

end Cursor

end Templating.Scan
