import Templating.Proofs.Event.Essence
import Templating.Proofs.Scan.Blind
import Templating.Proofs.Scan.Lookback
import Templating.Proofs.Scan.Quotes
import Templating.Proofs.Text.Trim

/-!
# Following the markup is transparent

Two scans of one template are compared: one follows the markup, the other does not.
The first hands text out earlier, which ends the header earlier and splits runs of
text. But it does so only behind characters that neither stand in a directive nor
are blank. So the other scan has that text pending wherever the difference could
show: before a declaration it is content as well, and behind the next directive
both have handed out the same.
-/

namespace Templating.Scan

open Piece (see seeText seeAll)
open Directive (IsForeign)
open Text (byteSize)

namespace State

variable {s t : State}

/-! ## What has been seen -/

/-- What has been said so far, without what is incidental, last piece first. -/
def seen (s : State) : List Piece :=
  seeAll [] s.events

theorem emit_seen (s : State) (body : Event.Body) :
    (s.emit body).seen = see s.seen s.depth body := by
  unfold seen
  rw [emit_events, Piece.seeAll_append]
  unfold announcement
  split
  · rfl
  · have hheader : see (seeAll [] s.events) s.depth .headerEnd = seeAll [] s.events :=
      Piece.see_incidental _ _ rfl
    exact congrArg (see · s.depth body) hheader

theorem amid_seen (s : State) (x : List Signal) (es : List Markup.Element) (b : Bool) :
    (s.amid x es b).seen = seeAll (seeAll [] (x.reverse.filterMap Signal.event?)) s.events := by
  have hevents : (s.amid x es b).events = x.reverse.filterMap Signal.event? ++ s.events := by
    simp [events, signals, amid]
  rw [seen, hevents, Piece.seeAll_append]

theorem amid_problems (s : State) (x : List Signal) (es : List Markup.Element) (b : Bool) :
    (s.amid x es b).problems = x.reverse.filterMap Signal.problem? ++ s.problems := by
  simp [problems, signals, amid]

/-- What is seen once the pending text but for its last `n` characters has been
handed out. -/
def seenPast (s : State) (n : Nat) : List Piece :=
  if s.pending.drop n = [] then s.seen else seeText s.seen s.depth (s.slice n)

theorem flush_seen (htop : s.top = .text) (n : Nat) : (s.flush n).seen = s.seenPast n := by
  unfold flush seenPast
  by_cases hn : s.pending.drop n = []
  · rw [if_neg (by simp [hn]), if_pos hn]
  · rw [if_pos ⟨htop, hn⟩, if_neg hn, emit_seen]
    rfl

/-- **Pending text may be handed out in two runs.** -/
theorem seenPast_split (h : Laid t) {m n : Nat} (hmn : m < n) (hm : m < t.pending.length) :
    seeText (t.seenPast n) t.depth ((t.keep n).slice m) = t.seenPast m := by
  have hrest : t.seenPast m = seeText t.seen t.depth (t.slice m) := by
    rw [seenPast, if_neg (by rw [List.drop_eq_nil_iff]; omega)]
  rw [hrest]
  by_cases hn : t.pending.length ≤ n
  · rw [seenPast, if_pos (List.drop_eq_nil_of_le hn), keep, List.take_of_length_le hn]
  · rw [seenPast, if_neg (by rw [List.drop_eq_nil_iff]; exact hn), Piece.seeText_seeText]
    have hstart : (t.slice n).start = (t.slice m).start := by
      rw [(slice_pending h.pending h.position (n := n) (by omega)).1,
        (slice_pending h.pending h.position (n := m) (by omega)).1]
    have hdrop : t.pending.drop m = (t.pending.take n).drop m ++ t.pending.drop n := by
      rw [← List.drop_append_of_le_length (by rw [List.length_take]; omega),
        List.take_append_drop]
    have htext : (t.slice n).text ++ ((t.keep n).slice m).text = (t.slice m).text := by
      show String.ofList (t.pending.drop n).reverse ++
        String.ofList ((t.pending.take n).drop m).reverse = String.ofList (t.pending.drop m).reverse
      rw [← String.ofList_append, ← List.reverse_append, ← hdrop]
    rw [hstart, htext]

/-! ## Alike but for the markup -/

/-- The state without what it has said and what it knows of the markup. -/
def bare (s : State) : State :=
  { s with said := [], elements := [], closingTag := false }

theorem amid_bare (s : State) : s.bare.amid s.said s.elements s.closingTag = s := rfl

end State

open State

/-- The states differ only in the elements that are open, and the same is seen of what
has been said. -/
structure Alike (s t : State) : Prop where
  bare : s.bare = t.bare
  seen : s.seen = t.seen
  problems : s.problems = t.problems

namespace Alike

variable {s t : State}

theorem refl (s : State) : Alike s s :=
  ⟨rfl, rfl, rfl⟩

theorem stack (h : Alike s t) : s.stack = t.stack := by
  show s.bare.stack = t.bare.stack
  rw [h.bare]

theorem top (h : Alike s t) : s.top = t.top := by
  unfold State.top
  rw [h.stack]

/-- **What is blind to the markup** leaves the states alike. -/
theorem map (h : Alike s t) (op : State → State) (hop : ∀ (x : List Signal)
    (es : List Markup.Element) (b : Bool), op (s.bare.amid x es b) = (op s.bare).amid x es b) :
    Alike (op s) (op t) := by
  have hs : op s = (op s.bare).amid s.said s.elements s.closingTag := by
    rw [← hop, amid_bare]
  have ht : op t = (op s.bare).amid t.said t.elements t.closingTag := by
    rw [← hop, h.bare, amid_bare]
  refine ⟨by rw [hs, ht]; rfl, ?_, ?_⟩
  · rw [hs, ht, amid_seen, amid_seen]
    exact congrArg (seeAll · _) h.seen
  · rw [hs, ht, amid_problems, amid_problems]
    exact congrArg (· ++ _) h.problems

theorem settle (h : Alike s t) : Alike s.settle t.settle :=
  h.map State.settle (s.bare.amid_settle)

/-- The end of the input is reported alike. -/
theorem reviewed (h : Alike s.settled t.settled) : Alike s.reviewed t.reviewed := by
  have hunfinished : s.settled.unfinished? = t.settled.unfinished? := by
    unfold State.unfinished?
    rw [h.stack]
  unfold State.reviewed
  rw [hunfinished]
  cases t.settled.unfinished? with
  | none => exact h
  | some problem =>
      exact h.map (fun u => u.signal (.problem problem)) fun x es b =>
        State.amid_signal _ x es b _

end Alike

/-! ## Ahead in the text -/

namespace State

/-- The state without what may differ in text. -/
def core (s : State) : State :=
  { s.bare with pending := [], headerOver := false }

theorem emit_core (s : State) (body : Event.Body) : (s.emit body).core = s.core := by
  rw [emit_eq]
  rfl

theorem flush_core (s : State) (n : Nat) : (s.flush n).core = s.core := by
  rcases s.flush_eq n with h | h
  · rw [h]
  · rw [h, emit_core]

end State

/-- In text, `s` has handed out all that `t` has pending but for the last `n`
characters. If `s` is really ahead, it has done so behind a character that is neither
blank nor in any directive. -/
structure Ahead (n : Nat) (s t : State) : Prop where
  core : s.core = t.core
  text : t.top = .text
  pending : s.pending = t.pending.take n
  seen : s.seen = t.seenPast n
  problems : s.problems = t.problems
  header : (t.pending.length ≤ n ∧ s.headerOver = t.headerOver) ∨
    (s.headerOver = true ∧ ∃ c ∈ t.pending.take (n + 1), IsForeign c ∧ Text.isBlank c = false)

namespace Ahead

variable {s t : State} {n : Nat}

section

variable (h : Ahead n s t)

include h

theorem stack : s.stack = t.stack := by
  show s.core.stack = t.core.stack
  rw [h.core]

theorem top : s.top = .text := by
  rw [← h.text]
  unfold State.top
  rw [h.stack]

/-- If nothing is ahead, the states are alike. -/
theorem alike (hn : t.pending.length ≤ n) (hover : s.headerOver = t.headerOver) :
    Alike s t := by
  have hpending : s.pending = t.pending := by rw [h.pending, List.take_of_length_le hn]
  refine ⟨?_, ?_, h.problems⟩
  · have hs : s.bare = { s.core with pending := s.pending, headerOver := s.headerOver } := rfl
    have ht : t.bare = { t.core with pending := t.pending, headerOver := t.headerOver } := rfl
    rw [hs, ht, h.core, hpending, hover]
  · rw [h.seen, seenPast, if_pos (List.drop_eq_nil_of_le hn)]

/-- **Handing out more text comes to the same**, however much of it has been handed
out before. -/
theorem flush_seen (hl : Laid t) (m : Nat) : (s.flush m).seen = t.seenPast (min n m) := by
  have hslice : s.slice m = (t.keep n).slice m := by
    have hs : s.slice m = ({ s.core with pending := s.pending } : State).slice m := rfl
    rw [hs, h.core, h.pending]
    rfl
  have hdepth : s.depth = t.depth := by
    show s.core.depth = t.core.depth
    rw [h.core]
  have hlength : s.pending.length = min n t.pending.length := by
    rw [h.pending, List.length_take]
  rw [State.flush_seen h.top]
  by_cases hm : s.pending.length ≤ m
  · rw [seenPast, if_pos (List.drop_eq_nil_of_le hm), h.seen]
    rcases Nat.le_total n m with hnm | hmn
    · rw [Nat.min_eq_left hnm]
    · rw [Nat.min_eq_right hmn]
      by_cases heq : n = m
      · rw [heq]
      · rw [seenPast, seenPast, if_pos (List.drop_eq_nil_of_le (by omega)),
          if_pos (List.drop_eq_nil_of_le (by omega))]
  · rw [seenPast, if_neg (by rw [List.drop_eq_nil_iff]; exact hm), h.seen, hslice, hdepth,
      Nat.min_eq_right (by omega)]
    exact State.seenPast_split hl (by omega) (by omega)

/-- Once the text has been handed out and let go of, nothing is ahead. -/
theorem settled (hl : Laid t)
    {m : Nat} (hm : m ≤ n) (hover : s.headerOver = true) (hsome : t.pending.drop m ≠ []) :
    Alike (s.flush m).settle (t.flush m).settle := by
  have hbare (u : State) (hu : u.headerOver = true) :
      u.settle.bare = { u.core with headerOver := true } := by
    rw [← hu]
    rfl
  have hs : (s.flush m).headerOver = true := by
    rcases s.flush_eq m with hu | hu <;> simp [hu, hover]
  have ht : (t.flush m).headerOver = true := by
    unfold State.flush
    rw [if_pos ⟨h.text, hsome⟩, State.emit_headerOver]
    exact Bool.or_true _
  refine ⟨?_, ?_, ?_⟩
  · rw [hbare _ hs, hbare _ ht, State.flush_core, State.flush_core, h.core]
  · show (s.flush m).seen = (t.flush m).seen
    rw [h.flush_seen hl, Nat.min_eq_right hm, State.flush_seen h.text]
  · show (s.flush m).problems = (t.flush m).problems
    rw [State.flush_problems, State.flush_problems, h.problems]

/-! ### Steps in the text -/

theorem advance (c : Char) : Ahead (n + 1) (s.advance c) (t.advance c) := by
  have hslice : (t.advance c).slice (n + 1) = t.slice n := by
    unfold State.slice
    congr 1
    show t.position + c.utf8Size - (c.utf8Size + byteSize (t.before.take n)) = _
    omega
  refine ⟨?_, h.text, ?_, ?_, h.problems, ?_⟩
  · show (s.core.advance c).core = (t.core.advance c).core
    rw [h.core]
  · show c :: s.pending = (c :: t.pending).take (n + 1)
    rw [List.take_succ_cons, h.pending]
  · show s.seen = _
    rw [h.seen, seenPast, seenPast, hslice]
    rfl
  · rcases h.header with ⟨hn, hover⟩ | ⟨hover, x, hx, hclear⟩
    · exact Or.inl ⟨Nat.succ_le_succ hn, hover⟩
    · exact Or.inr ⟨hover, x, List.mem_cons_of_mem _ hx, hclear⟩

theorem report (fault : Fault) : Ahead n (s.report fault) (t.report fault) := by
  have hline : s.line = t.line := by
    show s.core.line = t.core.line
    rw [h.core]
  have hseen (u : State) : (u.report fault).seen = u.seen := by
    rw [State.seen, State.report_events, ← State.seen]
  refine ⟨h.core, h.text, h.pending, ?_, ?_, h.header⟩
  · rw [hseen, h.seen, seenPast, seenPast, hseen]
    rfl
  · rw [State.report_problems, State.report_problems, h.problems, hline]

theorem newline : Ahead n { s.emit .lineEnd with line := s.line + 1 }
    { t.emit .lineEnd with line := t.line + 1 } := by
  have hcore (u : State) : ({ u.emit .lineEnd with line := u.line + 1 } : State).core =
      { u.core with line := u.line + 1 } := by
    rw [State.emit_eq]
    rfl
  have hline : s.line = t.line := by
    show s.core.line = t.core.line
    rw [h.core]
  have hseen (u : State) : ({ u.emit .lineEnd with line := u.line + 1 } : State).seen = u.seen := by
    show (u.emit .lineEnd).seen = _
    rw [State.emit_seen, Piece.see_incidental _ _ rfl]
  have hpast (u : State) :
      ({ u.emit .lineEnd with line := u.line + 1 } : State).seenPast n = u.seenPast n := by
    rw [seenPast, hseen]
    show (if (u.emit .lineEnd).pending.drop n = [] then _
      else seeText u.seen (u.emit .lineEnd).depth ((u.emit .lineEnd).slice n)) = _
    rw [State.emit_pending, State.emit_depth, State.emit_slice, seenPast]
  refine ⟨?_, ?_, ?_, ?_, ?_, ?_⟩
  · rw [hcore, hcore, h.core, hline]
  · show (t.emit .lineEnd).top = .text
    rw [State.emit_top, h.text]
  · simpa using h.pending
  · rw [hseen, hpast, h.seen]
  · show (s.emit .lineEnd).problems = (t.emit .lineEnd).problems
    rw [State.emit_problems, State.emit_problems, h.problems]
  · simpa [Event.Body.isHeader] using h.header

theorem endLine (c : Char) : Ahead n (s.endLine c) (t.endLine c) := by
  unfold State.endLine
  split
  · exact h.newline
  · exact h

end

end Ahead

/-! ## What following the markup does -/

namespace State

variable (s : State) (c : Char)

/-- Following the markup changes what is known of it; and it may say something about
it, handing out the text before, at a character that stands in no directive. -/
inductive Follows : State → Prop where
  | look (es : List Markup.Element) (b : Bool) : Follows (s.amid [] es b)
  | tell (m : Nat) (body : Event.Body) (es : List Markup.Element) (b : Bool) :
      IsForeign c → Text.isBlank c = false → body.isIncidental = true → body.isHeader = false →
      Follows ((((s.flush m).keep m).emit body).amid [] es b)

theorem amid_nil (es : List Markup.Element) (b : Bool) :
    s.amid [] es b = { s with elements := es, closingTag := b } := by
  simp [amid]

theorem setElement_eq (e : Markup.Element) :
    s.setElement e = s.amid [] (e :: s.elements.tail) s.closingTag := by
  rw [amid_nil]
  rfl

variable {s c}

theorem Follows.of_eq {t u : State} (h : s.Follows c t) (hu : u = t) : s.Follows c u :=
  hu ▸ h

theorem Follows.refl : s.Follows c s :=
  (Follows.look s.elements s.closingTag).of_eq (by rw [amid_nil])

theorem follows_endElement (e : Markup.Element) (after : List Char) :
    s.Follows '/' (s.endElement e after) := by
  have hclosing : ({ s with closingTag := true } : State) = s.amid [] s.elements true := by
    rw [amid_nil]
  unfold endElement
  split
  · simp only
    rw [hclosing]
    split
    · exact .look _ _
    · have htold : s.Follows '/'
          ((((s.flush 2).keep 2).emit (.elementClosed e)).amid [] s.elements.tail true) :=
        .tell 2 (.elementClosed e) _ _ (by decide +kernel) (by decide) rfl rfl
      refine htold.of_eq ?_
      rw [amid_flush, amid_keep, amid_emit, amid_nil, amid_nil]
  · exact .refl

theorem follows_completeOpening (e : Markup.Element) (width : Nat) (selfClosing : Bool) :
    s.Follows '>' (s.completeOpening e width selfClosing) := by
  let opened : Markup.Element := { e with opened := true }
  let told : State := ((s.flush width).keep width).emit (.elementOpened opened)
  have htold (es : List Markup.Element) (b : Bool) : s.Follows '>' (told.amid [] es b) :=
    .tell width (.elementOpened opened) es b (by decide +kernel) (by decide) rfl rfl
  have hopened : (((s.flush width).keep width).setElement opened).emit (.elementOpened opened) =
      told.amid [] (opened :: ((s.flush width).keep width).elements.tail)
        ((s.flush width).keep width).closingTag := by
    rw [setElement_eq, amid_emit]
  unfold completeOpening
  simp only
  rw [hopened]
  split
  · refine (htold ((s.flush width).keep width).elements.tail
      ((s.flush width).keep width).closingTag).of_eq ?_
    rw [amid_nil, amid_nil]
    rfl
  · exact htold _ _

theorem follows_quote (interest : Markup.Interest) (e : Markup.Element) :
    s.Follows '"' (s.quote interest e) := by
  have helement (e : Markup.Element) : s.Follows '"' (s.setElement e) :=
    (Follows.look _ _).of_eq (s.setElement_eq e)
  unfold quote
  split
  · exact .refl
  · rename_i a _
    split
    · simp only
      split
      · let begun : Markup.Attribute := { a with value := .begun, valueStart := s.position }
        have htold : s.Follows '"'
            ((((s.flush 0).keep 0).emit (.attributeBegun (e.setCurrent begun) begun)).amid []
              (e.setCurrent begun :: s.elements.tail) s.closingTag) :=
          .tell 0 _ _ _ (by decide +kernel) (by decide) rfl rfl
        refine htold.of_eq ?_
        rw [setElement_eq, amid_flush, amid_settle, amid_emit]
        rfl
      · exact helement _
    · exact helement _
    · exact .refl

theorem follows_followMarkup (interest : Markup.Interest) (c : Char) (after : List Char) :
    s.Follows c (s.followMarkup interest c after) := by
  unfold followMarkup
  split
  · unfold beginElement
    split
    · rename_i name _
      exact (Follows.look ({ name } :: s.elements) false).of_eq (by rw [amid_nil])
    · exact .refl
  · split
    · exact .refl
    · split
      · rename_i hc
        rw [hc.1]
        exact follows_endElement _ after
      · split
        · exact .refl
        · split
          · split
            · exact .refl
            · unfold beginAttribute
              split
              · exact .refl
              · exact (Follows.look _ _).of_eq (setElement_eq _ _)
          · exact follows_quote interest _
          · split
            · exact .refl
            · unfold endTag
              split
              · exact follows_completeOpening _ 2 true
              · split
                · exact (Follows.look s.elements false).of_eq (by rw [amid_nil])
                · exact follows_completeOpening _ 1 false
          · exact .refl

end State

/-! ## Mirrored states -/

/-- The scan that follows the markup is in the state `s`, the one that does not in
`t`. In a comment it does not matter what is pending. -/
def Mirrors (s t : State) : Prop :=
  match t.top with
  | .text => ∃ n, Ahead n s t
  | .comment => Alike s.settle t.settle
  | _ => Alike s t

theorem Alike.mirrors {s t : State} (h : Alike s t) : Mirrors s t := by
  unfold Mirrors
  split
  · rename_i htop
    have hpending : s.pending = t.pending := by
      show s.bare.pending = t.bare.pending
      rw [h.bare]
    have hheader : s.headerOver = t.headerOver := by
      show s.bare.headerOver = t.bare.headerOver
      rw [h.bare]
    refine ⟨t.pending.length, ?_, htop, ?_, ?_, h.problems, Or.inl ⟨Nat.le_refl _, hheader⟩⟩
    · rw [State.core, h.bare, ← State.core]
    · rw [List.take_length, hpending]
    · rw [h.seen, seenPast, if_pos List.drop_length]
  · exact h.settle
  · exact h

theorem Ahead.mirrors {s t : State} {n : Nat} (h : Ahead n s t) : Mirrors s t := by
  unfold Mirrors
  rw [h.text]
  exact ⟨n, h⟩

/-! ## Reading text -/

namespace Ahead

variable {s t : State} {n : Nat}

/-- Only the scan that follows the markup gets further ahead. -/
theorem follows (h : Ahead n s t) (hl : Laid t) {c : Char} {read : List Char}
    (hc : t.pending = c :: read) {s' : State} (hf : s.Follows c s') : ∃ m, Ahead m s' t := by
  cases hf with
  | look es b =>
      have hseen : (s.amid [] es b).seen = s.seen := State.amid_seen s [] es b
      have hproblems : (s.amid [] es b).problems = s.problems := State.amid_problems s [] es b
      exact ⟨n, h.core, h.text, h.pending, hseen.trans h.seen, hproblems.trans h.problems,
        h.header⟩
  | tell m body es b hforeign hblank hincidental hheader =>
      let told : State := ((s.flush m).keep m).emit body
      have hseen : (told.amid [] es b).seen = (s.flush m).seen := by
        rw [show (told.amid [] es b).seen = told.seen from State.amid_seen told [] es b]
        show (((s.flush m).keep m).emit body).seen = _
        rw [State.emit_seen, Piece.see_incidental _ _ hincidental]
        rfl
      refine ⟨min n m, ?_, h.text, ?_, ?_, ?_, Or.inr ⟨?_, c, ?_, hforeign, hblank⟩⟩
      · show (((s.flush m).keep m).emit body).core = t.core
        rw [State.emit_core]
        show (s.flush m).core = t.core
        rw [State.flush_core, h.core]
      · show (((s.flush m).keep m).emit body).pending = _
        rw [State.emit_pending]
        show (s.flush m).pending.take m = _
        rw [State.flush_pending, h.pending, List.take_take, Nat.min_comm]
      · rw [hseen, h.flush_seen hl]
      · have hproblems : (told.amid [] es b).problems = told.problems :=
          State.amid_problems told [] es b
        rw [hproblems]
        show (((s.flush m).keep m).emit body).problems = _
        rw [State.emit_problems]
        show (s.flush m).problems = _
        rw [State.flush_problems, h.problems]
      · show (((s.flush m).keep m).emit body).headerOver = true
        rw [State.emit_headerOver, hheader]
        exact Bool.or_true _
      · rw [hc, List.take_succ_cons]
        exact List.mem_cons_self

end Ahead

/-- A directive ends behind every character that stands in none. -/
theorem width_le {t : State} (hbegins : t.pending <+: t.before) {d : Directive}
    (hd : Directive.ends t.before d = true) {c : Char} {n : Nat}
    (hc : c ∈ t.pending.take (n + 1)) (hforeign : IsForeign c) :
    d.width ≤ n ∧ c ∈ t.pending.drop d.width := by
  obtain ⟨rest, hrest⟩ := List.isPrefixOf_iff_prefix.mp hd
  have hword : t.before.take d.width = d.word.toList.reverse := by
    rw [← hrest, List.take_left' (by rw [List.length_reverse]; rfl)]
  have hout : c ∉ t.pending.take d.width := by
    intro hmem
    have hmem' : c ∈ t.before.take d.width := (hbegins.take d.width).subset hmem
    rw [hword, List.mem_reverse] at hmem'
    exact hforeign d (Directive.mem_all d) hmem'
  constructor
  · by_contra hlt
    exact hout (List.take_subset_take_left t.pending (by omega) hc)
  · have hall : c ∈ t.pending.take d.width ++ t.pending.drop d.width := by
      rw [List.take_append_drop]
      exact List.mem_of_mem_take hc
    exact (List.mem_append.mp hall).resolve_left hout

/-- With content before it a declaration hands out that content. -/
theorem State.beginDeclaration_behind {u : State} {width : Nat} (k : Construct)
    (h : u.headerOver = true ∨ ∃ c ∈ u.pending.drop width, Text.isBlank c = false) :
    u.beginDeclaration width k = ((u.flush width).settle).push k := by
  have hcontent : (u.headerOver || !u.onlyBlankBefore width) = true := by
    rcases h with h | ⟨c, hc, hblank⟩
    · rw [h, Bool.true_or]
    · have hmem := Text.mem_trim hc hblank
      have hsome : u.onlyBlankBefore width = false := by
        unfold State.onlyBlankBefore
        cases htrim : Text.trim (u.pending.drop width) with
        | nil =>
            rw [htrim] at hmem
            cases hmem
        | cons c cs => rfl
      rw [hsome]
      exact Bool.or_true _
  unfold State.beginDeclaration
  rw [if_pos hcontent]

/-- In text a directive that is neither a comment nor a declaration is reported, or goes
on from the text that it hands out. -/
theorem State.obey_text {s t : State} (hstack : s.stack = t.stack) (htop : t.top = .text)
    {d : Directive} (hcomment : d ≠ .comment) (himported : d ≠ .imported) (hparam : d ≠ .param) :
    (∃ fault, s.obey d = s.report fault ∧ t.obey d = t.report fault) ∨
    ∃ op : State → State, (∀ u x es b, op (State.amid u x es b) = (op u).amid x es b) ∧
      s.obey d = op (s.flush d.width).settle ∧ t.obey d = op (t.flush d.width).settle := by
  have hs : s.top = .text := by
    rw [← htop, State.top, State.top, hstack]
  have hin (sort : Construct → Bool) : s.inTextOf sort = t.inTextOf sort := by
    unfold State.inTextOf
    rw [hstack]
  have begun (k : Construct) : ∃ op : State → State,
      (∀ u x es b, op (State.amid u x es b) = (op u).amid x es b) ∧
      s.begin d.width k = op (s.flush d.width).settle ∧
      t.begin d.width k = op (t.flush d.width).settle :=
    ⟨fun u => u.push k, fun u x es b => u.amid_push x es b k, rfl, rfl⟩
  have branch {act : State → State} (sort : Construct → Bool) (op : State → State)
      (hop : ∀ u x es b, op (State.amid u x es b) = (op u).amid x es b) (fault : Fault)
      (hact : ∀ u, act u = if u.inTextOf sort then op (State.flush u d.width).settle
        else State.report u fault) :
      (∃ fault, act s = s.report fault ∧ act t = t.report fault) ∨
      ∃ op : State → State, (∀ u x es b, op (State.amid u x es b) = (op u).amid x es b) ∧
        act s = op (s.flush d.width).settle ∧ act t = op (t.flush d.width).settle := by
    by_cases ht : t.inTextOf sort = true
    · refine Or.inr ⟨op, hop, ?_, ?_⟩
      · rw [hact, if_pos (by rw [hin, ht])]
      · rw [hact, if_pos ht]
    · refine Or.inl ⟨fault, ?_, ?_⟩
      · rw [hact, if_neg (by rw [hin]; exact ht)]
      · rw [hact, if_neg ht]
  cases d with
  | comment => exact absurd rfl hcomment
  | imported => exact absurd rfl himported
  | param => exact absurd rfl hparam
  | expression e => exact Or.inr (begun _)
  | statement => exact Or.inr (begun _)
  | conditionBegin => exact Or.inr (begun _)
  | loopBegin => exact Or.inr (begun _)
  | call kind => exact Or.inr (begun _)
  | render => exact Or.inr (begun _)
  | conditionElse =>
      exact branch Construct.isCondition (fun u => (u.pop.emit .conditionElse).push .text)
        (fun u x es b => by simp) _ fun _ => rfl
  | conditionElseIf =>
      exact branch Construct.isCondition (fun u => u.pop.pop.push .conditionElseIf)
        (fun u x es b => by simp) _ fun _ => rfl
  | conditionEnd =>
      exact branch Construct.isCondition (fun u => (u.pop.emit .conditionEnd).pop)
        (fun u x es b => by simp) _ fun _ => rfl
  | loopEnd =>
      exact branch (· == .loop) (fun u => (u.pop.emit .loopEnd).pop)
        (fun u x es b => by simp) _ fun _ => rfl
  | slotEnd =>
      refine branch (· == .slot) (fun u =>
        { u.pop.pop with depth := u.pop.pop.depth - 2 }.emit .slotEnd) ?_ _ fun _ => rfl
      intro u x es b
      rw [amid_pop, amid_pop]
      exact amid_emit { u.pop.pop with depth := u.pop.pop.depth - 2 } x es b .slotEnd
  | layoutEnd =>
      refine Or.inl ⟨.unbalanced Directive.layoutEnd.word CallKind.layout.word, ?_, ?_⟩
      · exact if_neg (by rw [hs]; simp)
      · exact if_neg (by rw [htop]; simp)
  | slotBegin =>
      refine Or.inl ⟨.slotOutsideCall, ?_, ?_⟩
      · exact if_neg (by rw [hs]; simp)
      · exact if_neg (by rw [htop]; simp)

/-- Where no directive ends, text is read on, or the markup is followed. -/
theorem State.readText_text {u : State} (htop : u.top = .text) {after : List Char}
    (hd : Directive.endingAt? u.before after = none) (setting : Setting) (c : Char) :
    u.readText setting c after = u ∨
      ∃ interest, Markup.Interest.active? setting.interest? = some interest ∧
        u.readText setting c after = u.followMarkup interest c after := by
  unfold State.readText
  rw [hd]
  simp only
  split
  · left
    unfold State.parenthesisBegins
    rw [htop]
  · left
    unfold State.parenthesisEnds
    rw [htop]
  · rename_i interest _ _ _ hinterest
    exact Or.inr ⟨interest, hinterest, rfl⟩
  · exact Or.inl rfl

namespace Ahead

variable {s t : State} {n : Nat}

/-- **A directive in text** lets the scans come together, or is reported by both. -/
theorem obey (h : Ahead n s t) (hl : Laid t) {d : Directive}
    (hd : Directive.ends t.before d = true) : Mirrors (s.obey d) (t.obey d) := by
  rcases h.header with ⟨hn, hover⟩ | ⟨hover, c, hc, hforeign, hblank⟩
  · have halike := h.alike hn hover
    exact (halike.map (fun u => u.obey d) fun x es b => s.bare.amid_obey x es b d).mirrors
  · obtain ⟨hw, hmem⟩ := width_le hl.pending hd hc hforeign
    have hsettled : Alike (s.flush d.width).settle (t.flush d.width).settle :=
      h.settled hl hw hover (List.ne_nil_of_mem hmem)
    have hpush (k : Construct) :
        Alike ((s.flush d.width).settle.push k) ((t.flush d.width).settle.push k) :=
      hsettled.map (fun u => u.push k) fun x es b => State.amid_push _ x es b k
    have hdeclared (k : Construct) :
        Mirrors (s.beginDeclaration d.width k) (t.beginDeclaration d.width k) := by
      rw [State.beginDeclaration_behind k (Or.inl hover),
        State.beginDeclaration_behind k (Or.inr ⟨c, hmem, hblank⟩)]
      exact (hpush k).mirrors
    by_cases hcomment : d = .comment
    · subst hcomment
      exact hpush .comment
    by_cases himported : d = .imported
    · subst himported
      exact hdeclared .imported
    by_cases hparam : d = .param
    · subst hparam
      exact hdeclared .param
    rcases State.obey_text h.stack h.text hcomment himported hparam with
      ⟨fault, hs, ht⟩ | ⟨op, hop, hs, ht⟩
    · rw [hs, ht]
      exact (h.report fault).mirrors
    · rw [hs, ht]
      exact (hsettled.map op fun x es b => hop _ x es b).mirrors

/-- **Reading a character of text** leaves the states mirrored. -/
theorem readText (h : Ahead n s t) (hl : Laid t) (setting : Setting) {c : Char}
    {read : List Char} (hc : t.pending = c :: read) (after : List Char) :
    Mirrors (s.readText setting c after)
      (t.readText { setting with interest? := none } c after) := by
  have hbefore : s.before = t.before := by
    show s.core.before = t.core.before
    rw [h.core]
  cases hd : Directive.endingAt? t.before after with
  | some d =>
      have hreads (u : State) (setting : Setting) (hu : u.before = t.before) :
          u.readText setting c after = u.obey d := by
        unfold State.readText
        rw [hu, hd]
      rw [hreads s _ hbefore, hreads t _ rfl]
      exact h.obey hl (Directive.ends_of_endingAt? hd)
  | none =>
      have hplain : t.readText { setting with interest? := none } c after = t := by
        rcases State.readText_text h.text hd { setting with interest? := none } c with
          hsame | ⟨interest, hinterest, -⟩
        · exact hsame
        · cases hinterest
      rw [hplain]
      rcases State.readText_text h.top (by rw [hbefore, hd]) setting c with
        hsame | ⟨interest, -, hfollow⟩
      · rw [hsame]
        exact h.mirrors
      · rw [hfollow]
        obtain ⟨m, hm⟩ := h.follows hl hc (State.follows_followMarkup interest c after)
        exact hm.mirrors

end Ahead

/-! ## The two scans -/

/-- Outside text it does not matter what markup is of interest. -/
theorem State.readChar_outside {u : State} (htop : u.top ≠ .text) (setting : Setting) (c : Char)
    (after : List Char) : u.readChar setting c after =
      u.readChar { setting with interest? := none } c after := by
  have htext : u.readText setting c after =
      u.readText { setting with interest? := none } c after := by
    unfold State.readText
    cases Directive.endingAt? u.before after with
    | some d => rfl
    | none =>
        simp only
        split
        · rfl
        · rfl
        · rename_i hinside _
          exact absurd hinside htop
        · split
          · contradiction
          · contradiction
          · rename_i hinside _ _ _
            exact absurd hinside htop
          · rfl
  unfold State.readChar
  split <;> first | rfl | exact htext

namespace Mirrors

variable {s t : State}

/-- In a comment, too, only what is pending differs. -/
theorem of_comment (htop : t.top = .comment) (h : Alike s.settle t.settle) : Mirrors s t := by
  unfold Mirrors
  rw [htop]
  exact h

/-- The end of a line leaves the states mirrored. -/
theorem endLine (h : Mirrors s t) (c : Char) : Mirrors (s.endLine c) (t.endLine c) := by
  have htop (u : State) : (u.endLine c).top = u.top := by
    unfold State.endLine
    split
    · show (u.emit .lineEnd).top = _
      rw [State.emit_top]
    · rfl
  have hsettle (u : State) : (u.endLine c).settle = u.settle.endLine c := by
    unfold State.endLine
    split
    · rw [← State.emit_settle]
      rfl
    · rfl
  have hends {u v : State} (h : Alike u v) : Alike (u.endLine c) (v.endLine c) :=
    h.map (fun u => u.endLine c) fun x es b => State.amid_endLine _ x es b c
  unfold Mirrors at h
  split at h
  · obtain ⟨n, h⟩ := h
    exact (h.endLine c).mirrors
  · rename_i hcomment
    refine of_comment (by rw [htop, hcomment]) ?_
    rw [hsettle, hsettle]
    exact hends h
  · exact (hends h).mirrors

/-- Taking a character leaves the states mirrored. -/
theorem step (h : Mirrors s t) (hl : Laid t) (setting : Setting) (c : Char)
    (after : List Char) :
    Mirrors (s.step setting c after) (t.step { setting with interest? := none } c after) := by
  suffices hread : Mirrors ((s.advance c).readChar setting c after)
      ((t.advance c).readChar { setting with interest? := none } c after) from hread.endLine c
  have hadvance : Laid (t.advance c) := laid_upheld.advance t c hl
  have houtside (halike : Alike (s.advance c) (t.advance c)) (htop : t.top ≠ .text) :
      Alike ((s.advance c).readChar setting c after)
        ((t.advance c).readChar { setting with interest? := none } c after) := by
    have hs : (s.advance c).top ≠ .text := by
      rw [halike.top]
      exact htop
    rw [State.readChar_outside hs]
    exact halike.map (fun u => u.readChar { setting with interest? := none } c after)
      fun x es b => State.amid_readChar _ x es b _ c after (Or.inl hs)
  unfold Mirrors at h
  split at h
  · rename_i htop
    obtain ⟨n, h⟩ := h
    have htext (u : State) (hu : u.top = .text) (setting : Setting) :
        (u.advance c).readChar setting c after = (u.advance c).readText setting c after := by
      unfold State.readChar
      rw [State.advance_top, hu]
    rw [htext s h.top, htext t htop]
    exact (h.advance c).readText hadvance setting rfl after
  · rename_i htop
    have hs : s.top = .comment := by
      rw [← htop, ← State.settle_top, h.top, State.settle_top]
    have hbefore : s.before = t.before := by
      show s.settle.bare.before = t.settle.bare.before
      rw [h.bare]
    have hkept : Alike (s.advance c).settle (t.advance c).settle :=
      h.map (fun u => (u.advance c).settle) fun x es b => rfl
    have hcomment (u : State) (hu : u.top = .comment) (setting : Setting) :
        (u.advance c).readChar setting c after =
          if ['>', '%', '-', '-'].isPrefixOf (c :: u.before) then (u.advance c).pop.settle
          else u.advance c := by
      unfold State.readChar
      rw [State.advance_top, hu]
      rfl
    rw [hcomment s hs, hcomment t htop, hbefore]
    split
    · rw [State.pop_settle, State.pop_settle]
      exact (hkept.map State.pop fun x es b => State.amid_pop _ x es b).mirrors
    · exact of_comment htop hkept
  · rename_i htext _
    exact (houtside (h.map (fun u => u.advance c) fun x es b =>
      State.amid_advance _ x es b c) htext).mirrors

theorem run (h : Mirrors s t) (hl : Laid t) (setting : Setting) (source : List Char) :
    Mirrors (State.run setting s source)
      (State.run { setting with interest? := none } t source) := by
  induction source generalizing s t with
  | nil => exact h
  | cons c cs ih => exact ih (h.step hl setting c cs) (laid_upheld.step _ c cs hl)

/-- At the end of the input both scans have handed out everything. -/
theorem settled (h : Mirrors s t) (hl : Laid t) : Alike s.settled t.settled := by
  have hends {u v : State} (h : Alike u v) : Alike u.settled v.settled :=
    h.map State.settled fun x es b => State.amid_settled _ x es b
  have hplain (u : State) (himported : u.top ≠ .imported) (hparam : u.top ≠ .param) :
      u.settled = (u.flush 0).settle := by
    unfold State.settled
    rw [if_neg (by simp [himported, hparam])]
  unfold Mirrors at h
  split at h
  · rename_i htop
    obtain ⟨n, h⟩ := h
    rcases h.header with ⟨hn, hover⟩ | ⟨hover, c, hc, -⟩
    · exact hends (h.alike hn hover)
    · rw [hplain s (by simp [h.top]) (by simp [h.top]), hplain t (by simp [htop]) (by simp [htop])]
      exact h.settled hl (Nat.zero_le n) hover (List.ne_nil_of_mem (List.mem_of_mem_take hc))
  · rename_i htop
    have hs : s.top = .comment := by
      rw [← htop, ← State.settle_top, h.top, State.settle_top]
    have hflush (u : State) (hu : u.top = .comment) : u.flush 0 = u := by
      unfold State.flush
      rw [if_neg (by simp [hu])]
    rw [hplain s (by simp [hs]) (by simp [hs]), hplain t (by simp [htop]) (by simp [htop]),
      hflush s hs, hflush t htop]
    exact h
  · exact hends h

end Mirrors

/-- **Following the markup is transparent.** Whatever elements and attributes are of
interest, what the events of a template say about what it does is the same as if none
were, and so are the problems of the template. So no text is lost, doubled or moved,
and what is declared with the one is declared with the other. -/
theorem interception_transparent (setting : Setting) (source : List Char) :
    essence (events setting source) = essence (events { setting with interest? := none } source) ∧
      problems setting source = problems { setting with interest? := none } source := by
  have hmirrors : Mirrors {} {} := (Alike.refl {}).mirrors
  have hlaid := laid_upheld.run { setting with interest? := none } Laid.start source
  have hsettled := (hmirrors.run Laid.start setting source).settled hlaid
  have hend : Alike (State.run setting {} source).finish
      (State.run { setting with interest? := none } {} source).finish := by
    rw [State.finish_reviewed, State.finish_reviewed]
    exact (Alike.reviewed hsettled).map (fun u => u.emit .complete) fun x es b =>
      State.amid_emit _ x es b .complete
  rw [events_eq, events_eq, problems_eq, problems_eq]
  exact ⟨congrArg List.reverse hend.seen, hend.problems⟩

example : essence (events { interest? := some { tags := ["a"] } } "<a b>@if".toList) =
    [⟨0, .text ⟨0, "<a b>"⟩⟩, ⟨0, .complete⟩] := by
  decide +kernel

end Templating.Scan
