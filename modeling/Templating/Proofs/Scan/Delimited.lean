import Templating.Proofs.Scan.Blocks
import Templating.Proofs.Scan.Grounded
import Templating.Proofs.Scan.Groups
import Templating.Proofs.Scan.Quotes

/-!
# Where code ends

The code of an expression, a statement, a condition or a loop ends at the first bracket
that closes none of its groups. What the scanner says of the code is said there, and
nothing but ends of lines is said before, unless it is the first content of the
template: then the header ends directly before it. Code without such a bracket is
reported at the end of the input.
-/

namespace Templating.Scan

open Template (Grouped Grouping)

/-- Where the code of a directive stands: what follows the word, the brackets that
count in the code, the bracket that ends it, and what is said of it. -/
inductive Encloses : Directive → List Char → Grouping → Char → (Text.Slice → Event.Body) → Prop
    where
  | expression (escaping : Escaping) :
      Encloses (.expression escaping) [] .braces '\x7d' (.expression escaping)
  | statement : Encloses .statement [] .braces '\x7d' .statement
  | condition : Encloses .conditionBegin ['('] .parentheses ')' .conditionBegin
  | conditionElseIf : Encloses .conditionElseIf ['('] .parentheses ')' .conditionElseIf
  | loop : Encloses .loopBegin ['('] .parentheses ')' .loopBegin

/-- The constructs around what follows the code, if those `around` stand around the
directive. -/
def scopeBehind (around : List Construct) : Directive → List Construct
  | .conditionBegin => .text :: .condition :: around
  | .conditionElseIf => .text :: .conditionElseIf :: around.tail.tail
  | .loopBegin => .text :: .loop :: around
  | _ => around

namespace State

variable {d : Directive} {opening : List Char} {g : Grouping} {close : Char}
  {body : Text.Slice → Event.Body} {k : Construct} {base : List Frame}
  {scope : List Construct} {s t : State} {setting : Setting} {c : Char}
  {after rest : List Char} {line : Nat}

/-! ## Around the code -/

/-- The code is read in the construct `k`, and behind its end the constructs are
`scope`. -/
structure Awaits (g : Grouping) (close : Char) (body : Text.Slice → Event.Body)
    (scope : List Construct) (k : Construct) (base : List Frame) : Prop where
  closer : g.closer? = some close
  suits : k.suits g = true
  noList : k.isArguments = false
  ends : ∀ {s t : State} (rest : List Char), Inside base [k] s t →
    (t.readCode close rest).signals =
        s.signals ++ (s.announcement (body (s.slice 1))).map Signal.event ∧
      (t.readCode close rest).pending = [] ∧
      (t.readCode close rest).stack.map Frame.construct = scope

/-- Behind braces the scanner is where it was before. -/
theorem awaits_braced (h : Braced d k body) (hbase : OnText base) :
    Awaits .braces '\x7d' body (base.map Frame.construct) k base where
  closer := rfl
  suits := by cases h <;> rfl
  noList := by cases h <;> rfl
  ends := by
    intro s t rest ht
    have hk : k ≠ .text := by cases h <;> simp
    have hclose : t.readCode '\x7d' rest =
        ({ s with stack := base } : State).settle.emit (body (s.slice 1)) := by
      have htext : t.pop.settle.top = .text := by
        rw [ht.pop_eq hk]
        exact onText_iff.mp hbase
      show t.closeBrace = _
      rw [← ht.pop_eq hk, ← ht.slice]
      cases h <;> simp only [closeBrace, ht.top, htext, if_true]
    rw [hclose]
    exact ⟨emit_signals _ _, by simp, by simp⟩

/-- Behind a header it is in the text that the header governs. -/
theorem awaits_headed {k' : Construct} (h : Headed k k' body) :
    Awaits .parentheses ')' body (.text :: k :: base.map Frame.construct) k'
      (⟨k, line⟩ :: base) where
  closer := rfl
  suits := by cases h <;> rfl
  noList := by cases h <;> rfl
  ends := by
    intro s t rest ht
    have hk : k' ≠ .text := by cases h <;> simp
    have hclose : t.readCode ')' rest =
        (({ s with stack := ⟨k, line⟩ :: base } : State).settle.emit
          (body (s.slice 1))).push .text := by
      have hpop : t.pop.top = k := by
        rw [ht.pop_eq hk]
        rfl
      have hslice : t.pop.slice 1 = s.slice 1 := by
        rw [ht.pop_eq hk]
        rfl
      show t.closeParenthesis = _
      rw [← ht.pop_eq hk, ← hslice]
      cases h <;> simp [closeParenthesis, ht.top, hpop, closeHeader]
    rw [hclose]
    exact ⟨emit_signals _ _, by simp, by simp⟩

/-! ## In front of the code -/

theorem step_directive (htop : s.top = .text)
    (hd : (s.advance c).directive? after = some d) :
    s.step setting c after = ((s.advance c).obey d).endLine c := by
  have hreads : (s.advance c).top.readsText = true := by
    rw [advance_top, htop]
    rfl
  rw [directive?, if_pos hreads] at hd
  rw [step, readChar_readsText _ _ _ _ hreads, readText_found hd]

theorem step_header {k' : Construct} (h : Headed s.top k' body) :
    s.step setting '(' after = (s.advance '(').settle.push k' := by
  have hreads : (s.advance '(').top.readsText = true := by
    rw [advance_top]
    generalize s.top = k at h
    cases h <;> rfl
  have hquiet : Directive.endingAt? (s.advance '(').before after = none :=
    endingAt?_parenthesis (Or.inl rfl) _
  have hread : (s.advance '(').readText setting '(' after = (s.advance '(').parenthesisBegins := by
    unfold readText
    rw [hquiet]
    rfl
  rw [step, readChar_readsText _ _ _ _ hreads, hread, endLine_of_ne _ (by decide)]
  unfold parenthesisBegins
  rw [advance_top]
  generalize s.top = k at h
  cases h <;> rfl

/-- Nothing is pending, and the code that begins is awaited. -/
def Begun (g : Grouping) (close : Char) (body : Text.Slice → Event.Body)
    (scope : List Construct) (t : State) : Prop :=
  t.pending = [] ∧ ∃ k base, Inside base [k] t t ∧ Awaits g close body scope k base

theorem begun_braced (h : Braced d k body) (htop : s.top = .text)
    (hd : (s.advance c).directive? after = some d) :
    Begun .braces '\x7d' body (s.stack.map Frame.construct) (s.step setting c after) := by
  have hobey : (s.advance c).obey d = (s.advance c).begin d.width k := by
    cases h <;> rfl
  rw [step_directive htop hd, hobey]
  refine ⟨by simp [begin], k, s.stack, ?_, awaits_braced h (onText_iff.mpr htop)⟩
  exact Inside.of_stack [⟨k, s.line⟩] (by simp [begin])

theorem begun_headed {k' : Construct} (line : Nat) (h : Headed k k' body)
    (hstack : (s.step setting c ('(' :: after)).stack = ⟨k, line⟩ :: base) :
    Begun .parentheses ')' body (.text :: k :: base.map Frame.construct)
      (s.through setting [c, '('] after) := by
  have htop : (s.step setting c ('(' :: after)).top = k := by
    rw [top, hstack]
  have hheader : s.through setting [c, '('] after =
      ((s.step setting c ('(' :: after)).advance '(').settle.push k' :=
    step_header (htop ▸ h)
  rw [hheader]
  refine ⟨by simp, k', ⟨k, line⟩ :: base, ?_, awaits_headed h⟩
  exact Inside.of_stack [⟨k', (s.step setting c ('(' :: after)).line⟩]
    (by simp [hstack])

/-- **Behind its opening the code is awaited.** -/
theorem begun_of_encloses (h : Encloses d opening g close body) (htop : s.top = .text)
    (hd : (s.advance c).directive? (opening ++ after) = some d)
    (helse : d = .conditionElseIf → s.inTextOf Construct.isCondition = true) :
    Begun g close body (scopeBehind (s.stack.map Frame.construct) d)
      (s.through setting (c :: opening) after) := by
  cases h with
  | expression escaping => exact begun_braced (.expression escaping) htop hd
  | statement => exact begun_braced .statement htop hd
  | condition =>
      refine begun_headed s.line .condition ?_
      rw [List.singleton_append] at hd
      rw [step_directive htop hd]
      simp [obey, begin]
  | conditionElseIf =>
      have hin : (s.advance c).inTextOf Construct.isCondition = true := helse rfl
      rw [scopeBehind, ← List.map_tail, ← List.map_tail]
      refine begun_headed s.line .conditionElseIf ?_
      rw [List.singleton_append] at hd
      rw [step_directive htop hd]
      simp [obey, conditionElseIf, hin]
  | loop =>
      refine begun_headed s.line .loop ?_
      rw [List.singleton_append] at hd
      rw [step_directive htop hd]
      simp [obey, begin]

/-! ## Behind the code -/

/-- What the code is said as. -/
theorem slice_past (hpending : t.pending = []) (p : List Char) :
    ((t.past p).advance close).slice 1 = ⟨t.position, String.ofList p⟩ := by
  have hstart : t.position + Text.byteSize p + close.utf8Size -
      Text.byteSize [close] - Text.byteSize p = t.position := by
    simp only [Text.byteSize_cons, Text.byteSize_nil]
    omega
  simp only [slice, Text.Slice.endingAt, advance, List.drop_one, List.tail_cons, past_pending,
    past_position, hpending, List.append_nil, List.take_succ_cons, List.take_zero,
    List.reverse_reverse, Text.byteSize_reverse, hstart]

/-- Code that is awaited ends at its closing bracket. -/
theorem Begun.ends (h : Begun g close body scope t) (setting : Setting) (rest : List Char)
    {p : List Char} (hp : Grouped g p) :
    (t.through setting (p ++ [close]) rest).signals = t.signals ++
        (newlines t.line t.depth p ++
          (t.past p).announcement (body ⟨t.position, String.ofList p⟩)).map Signal.event ∧
      (t.through setting (p ++ [close]) rest).pending = [] ∧
      (t.through setting (p ++ [close]) rest).stack.map Frame.construct = scope := by
  obtain ⟨hpending, k, base, hinside, hawaits⟩ := h
  have hclose : close ≠ '\n' := by
    have hcloser := hawaits.closer
    rintro rfl
    cases g <;> cases hcloser
  have hend := through_walk setting (close :: rest) hawaits.noList
    (Template.grouped_iff.mp hp) (p := {}) hawaits.suits hinside
  have hadvance := hend.advance close
  have htop : ((t.through setting p (close :: rest)).advance close).top = k := hadvance.top
  have hread : t.through setting (p ++ [close]) rest =
      ((t.through setting p (close :: rest)).advance close).readCode close rest := by
    rw [through_snoc, step, endLine_of_ne _ hclose,
      readChar_readsCode (htop ▸ Construct.suits_readsCode hawaits.suits)]
  have hends := hawaits.ends rest hadvance
  rw [slice_past hpending] at hends
  have hsignals : ((t.past p).advance close).signals = t.signals ++
      (newlines t.line t.depth p).map Signal.event := t.past_signals p
  rw [hread, List.map_append, ← List.append_assoc, ← hsignals]
  exact hends

/-- Where code is read, neither a text nor a declaration is. -/
theorem exists_upTo {p : Template.Spot} (h : k.Fits g p.groups) : ∃ x below,
    k.upTo p = x :: below ∧ x ≠ .text ∧ x ≠ .imported ∧ x ≠ .param := by
  obtain ⟨groups, string?⟩ := p
  cases string? with
  | some escaping => exact ⟨.string escaping, k.within groups, rfl, by simp, by simp, by simp⟩
  | none =>
      obtain ⟨top, below, hwithin, hsuits⟩ := h.within
      have hcode := Construct.suits_readsCode hsuits
      refine ⟨top, below, hwithin, ?_, ?_, ?_⟩ <;> rintro rfl <;> cases hcode

/-- The input ends in code. -/
theorem finish_code (htext : s.top ≠ .text) (himport : s.top ≠ .imported)
    (hparam : s.top ≠ .param) : ∃ line, s.finish.signals =
      s.signals ++ [.problem ⟨line, .unterminated s.top⟩] ++
        (s.announcement .complete).map Signal.event := by
  obtain ⟨frame, rest, hstack, hframe⟩ := stack_of_top rfl htext
  have hsettled : s.settled = s.settle := by
    rw [settled, if_neg (by simp [himport, hparam]), flush_of_top_ne_text _ _ htext]
  have hfinish : s.finish =
      (s.settle.signal (.problem ⟨frame.line, .unterminated s.top⟩)).emit .complete := by
    have hunfinished : s.settle.unfinished? = some ⟨frame.line, .unterminated s.top⟩ := by
      simp [unfinished?, hstack, hframe, htext]
    rw [finish_eq, hsettled, hunfinished]
  refine ⟨frame.line, ?_⟩
  rw [hfinish, emit_signals]
  simp [signals, signal]
  rfl

/-- Code that is awaited in vain is reported at the end of the input. -/
theorem Begun.lasts (h : Begun g close body scope t) (setting : Setting)
    (hnone : ∀ p rest, after = p ++ close :: rest → ¬ Grouped g p) :
    ∃ line k, (t.through setting after []).finish.signals = t.signals ++
      (newlines t.line t.depth after).map Signal.event ++
      [.problem ⟨line, .unterminated k⟩] ++
      ((t.past after).announcement .complete).map Signal.event := by
  obtain ⟨hpending, k, base, hinside, hawaits⟩ := h
  obtain ⟨q, hwalk, -⟩ := Template.exists_walk? hawaits.closer hnone
  have hfits : k.Fits g ({} : Template.Spot).groups := hawaits.suits
  have hend := through_walk setting [] hawaits.noList hwalk hfits hinside
  obtain ⟨x, below, hupTo, htext, himport, hparam⟩ := exists_upTo (hfits.walk hwalk)
  rw [hupTo] at hend
  have htop := hend.top
  obtain ⟨line, hfinish⟩ := finish_code (htop ▸ htext) (htop ▸ himport) (htop ▸ hparam)
  refine ⟨line, x, ?_⟩
  rw [hfinish, htop, ← past_signals]
  obtain ⟨frames, -, hlast⟩ := hend
  rw [hlast]
  rfl

end State

open State

/-- **Code is delimited by the first bracket that closes none of its groups.** Let `t` be
the state behind the word of a directive and its opening, in a text, and let `p` be
grouped and followed by the closing bracket. Then behind the bracket exactly one event
with `p` has been said, and before it only the ends of the lines of `p`, and the end of
the header if this is the first content; what follows is read in text. If there is no
such `p`, the code is reported as unterminated and nothing is said of it. -/
theorem code_delimited (setting : Setting) {d : Directive} {opening : List Char}
    {g : Grouping} {close : Char} {body : Text.Slice → Event.Body}
    (h : Encloses d opening g close body) (read : List Char) (c : Char) (after : List Char) :
    let s := State.through setting {} read (c :: (opening ++ after))
    let t := s.through setting (c :: opening) after
    let headerEnd (line : Nat) : List Event :=
      if t.headerOver then [] else [⟨line, t.depth, .headerEnd⟩]
    s.top = .text → (s.advance c).directive? (opening ++ after) = some d →
    (d = .conditionElseIf → s.inTextOf Construct.isCondition = true) →
    (∀ p rest, after = p ++ close :: rest → Grouped g p →
      let u := t.through setting (p ++ [close]) rest
      let line := t.line + p.count '\n'
      let code : Text.Slice := ⟨Text.byteSize (read ++ c :: opening), String.ofList p⟩
      u.signals = t.signals ++ List.map Signal.event
        (newlines t.line t.depth p ++ (headerEnd line ++ [⟨line, t.depth, body code⟩])) ∧
      u.pending = [] ∧
      u.stack.map Frame.construct = scopeBehind (s.stack.map Frame.construct) d) ∧
    ((¬ ∃ p rest, after = p ++ close :: rest ∧ Grouped g p) →
      let line := t.line + after.count '\n'
      ∃ begun k, signals setting (read ++ c :: (opening ++ after)) =
        t.signals ++ List.map Signal.event (newlines t.line t.depth after) ++
          [.problem ⟨begun, .unterminated k⟩] ++
          List.map Signal.event (headerEnd line ++ [⟨line, t.depth, .complete⟩])) := by
  intro s t headerEnd htop hd helse
  have hbegun : Begun g close body (scopeBehind (s.stack.map Frame.construct) d) t :=
    begun_of_encloses h htop hd helse
  have hlaid : Laid t :=
    laid_upheld.through setting (laid_upheld.through setting Laid.start _ _) _ _
  have hposition : t.position = Text.byteSize (read ++ c :: opening) := by
    have hlayered := layered_upheld.through setting layered_start read (c :: (opening ++ after))
    rw [hlaid.position, through_before hlayered, through_before layered_start]
    simp
    omega
  have hbody (x : Text.Slice) : (body x).isHeader = false := by
    cases h <;> rfl
  refine ⟨?_, ?_⟩
  · intro p rest hafter hp u line code
    subst hafter
    have hends := hbegun.ends setting rest hp
    rwa [announcement_past _ p (hbody _), hposition] at hends
  · intro hnone line
    obtain ⟨begun, k, hlasts⟩ := hbegun.lasts setting fun p rest hafter hp =>
      hnone ⟨p, rest, hafter, hp⟩
    refine ⟨begun, k, ?_⟩
    rw [announcement_past _ after rfl] at hlasts
    rw [← hlasts]
    show (run setting {} _).finish.signals = _
    rw [run_append, ← List.cons_append, run_append, run_eq_through]
    rfl

/-- The code of an expression, and one that does not end. -/
theorem code_delimited_expression :
    (let t := State.through {} {} "$\x7b".toList "a\x7db".toList
    let u := t.through {} "a\x7d".toList "b".toList
    u.signals = t.signals ++ List.map Signal.event
        ([] ++ ([⟨1, 0, .headerEnd⟩] ++ [⟨1, 0, .expression .escaped ⟨2, "a"⟩⟩])) ∧
      u.pending = [] ∧ u.stack.map Frame.construct = []) ∧
    ∃ begun k, signals {} "$\x7b\"\x7d".toList =
      (State.through {} {} "$\x7b".toList "\"\x7d".toList).signals ++ [] ++
        [.problem ⟨begun, .unterminated k⟩] ++
        List.map Signal.event ([⟨1, 0, .headerEnd⟩] ++ [⟨1, 0, .complete⟩]) :=
  ⟨(code_delimited {} (.expression .escaped) ['$'] '\x7b' ['a', '\x7d', 'b'] (by decide +kernel)
      (by decide +kernel) nofun).1 ['a'] ['b'] rfl (by decide +kernel),
    (code_delimited {} (.expression .escaped) ['$'] '\x7b' ['"', '\x7d'] (by decide +kernel)
      (by decide +kernel) nofun).2 fun ⟨_, _, hsplit, hp⟩ =>
        Template.not_grouped_of_walk? (show Grouping.braces.closer? = some '\x7d' from rfl)
          (by decide +kernel) hsplit hp⟩

/-- The end of the header is said between code that is the first content and the event
of that code, behind the ends of the lines of the code. -/
theorem headerEnd_within_code : ¬ ∀ (setting : Setting) (d : Directive) (opening : List Char)
    (g : Grouping) (close : Char) (body : Text.Slice → Event.Body),
    Encloses d opening g close body → ∀ (read : List Char) (c : Char) (p rest : List Char),
    let after := p ++ close :: rest
    let s := State.through setting {} read (c :: (opening ++ after))
    let t := s.through setting (c :: opening) after
    let u := t.through setting (p ++ [close]) rest
    s.top = .text → (s.advance c).directive? (opening ++ after) = some d →
    (d = .conditionElseIf → s.inTextOf Construct.isCondition = true) → Grouped g p →
      ∃ between line depth code, (∀ e ∈ between, e.body = .lineEnd) ∧
        u.signals = t.signals ++
          List.map Signal.event (between ++ [⟨line, depth, body ⟨code, String.ofList p⟩⟩]) := by
  intro h
  obtain ⟨between, line, depth, code, hbetween, hsignals⟩ :=
    h {} _ _ _ _ _ (.expression .escaped) ['$'] '\x7b' ['a', '\n', 'b'] [] (by decide +kernel)
      (by decide +kernel) nofun (by decide +kernel)
  have hsaid := List.mem_append.mp (hsignals.subst
    (motive := fun said => Signal.event ⟨2, 0, .headerEnd⟩ ∈ said) (by decide +kernel))
  obtain ⟨e, he, heq⟩ := List.mem_map.mp (hsaid.resolve_left (by decide +kernel))
  obtain rfl := Signal.event.inj heq
  rcases List.mem_append.mp he with he | he
  · cases hbetween _ he
  · cases (List.mem_singleton.mp he)

end Templating.Scan
