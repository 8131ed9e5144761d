import Templating.Proofs.Scan.Lookback
import Templating.Proofs.Scan.Operations

/-!
# A scan without problems

`Reading` describes the state of a scan that has met no problem: the source it
has let go of and the part that is pending, the constructs around it, and the
events it has said. What each operation does to such a state is an equation
between descriptions, and `Reads` joins the readings of consecutive pieces of
source. Ends of lines are left out of the events, since they are said wherever
they stand.
-/

namespace Templating.Scan

open Template (Place)

/-! ## Descriptions of states -/

/-- The place behind a text that is read from the start. -/
def place (front : List Char) : Place :=
  ({} : Place).past front

@[simp] theorem place_past (front cs : List Char) : (place front).past cs = place (front ++ cs) :=
  Place.past_past _ _ _

@[simp] theorem place_byte (front : List Char) : (place front).byte = Text.byteSize front :=
  Nat.zero_add _

/-- The events without the ends of lines. -/
def withoutLineEnds (es : List Event) : List Event :=
  es.filter fun e => e.body != .lineEnd

/-- The events with the end of the header said before the first one. -/
def announced : List Event → List Event
  | [] => []
  | e :: es => { e with body := .headerEnd } :: e :: es

/-- The event that is due for the pending text. -/
def textEvents (front pending : List Char) (depth : Nat) : List Event :=
  if pending = [] then [] else [(place front).quote depth pending .text]

/-- The state after reading `front` and `pending`, of which the first part has
been dealt with: inside the constructs `stack`, having said `es` and met no
problem. -/
structure Reading (front pending : List Char) (depth : Nat) (stack : List Construct)
    (es : List Event) (s : State) : Prop where
  before_eq : s.before = (front ++ pending).reverse
  pending_eq : s.pending = pending.reverse
  position_eq : s.position = Text.byteSize (front ++ pending)
  line_eq : s.line = (place (front ++ pending)).line
  depth_eq : s.depth = depth
  stack_eq : s.stack.map Frame.construct = stack
  header_eq : s.headerOver = !es.isEmpty
  events_eq : withoutLineEnds s.events = announced es
  problems_eq : s.problems = []

namespace Reading

variable {front pending : List Char} {depth : Nat} {stack : List Construct} {es : List Event}
  {s : State}

theorem start : Reading [] [] 0 [] [] {} :=
  ⟨rfl, rfl, rfl, rfl, rfl, rfl, rfl, rfl, rfl⟩

theorem top (h : Reading front pending depth stack es s) : s.top = stack.head?.getD .text := by
  rw [← h.stack_eq, State.top]
  cases s.stack <;> rfl

theorem exists_frame {k : Construct} (h : Reading front pending depth (k :: stack) es s) :
    ∃ frame rest, s.stack = frame :: rest ∧ frame.construct = k ∧
      rest.map Frame.construct = stack := by
  have hstack := h.stack_eq
  cases hs : s.stack with
  | nil =>
      rw [hs] at hstack
      exact absurd hstack (by simp)
  | cons frame rest =>
      rw [hs, List.map_cons, List.cons.injEq] at hstack
      exact ⟨frame, rest, rfl, hstack.1, hstack.2⟩

theorem inTextOf {opener : Construct} (h : Reading front pending depth (.text :: opener :: stack)
    es s) (sort : Construct → Bool) : s.inTextOf sort = sort opener := by
  obtain ⟨t, rest, hs, ht, hrest⟩ := h.exists_frame
  cases rest with
  | nil => exact absurd hrest (by simp)
  | cons frame rest =>
      rw [List.map_cons, List.cons.injEq] at hrest
      simp [State.inTextOf, hs, ht, hrest.1]

/-- One more character, while the constructs change without a change of
depth. -/
theorem take (h : Reading front pending depth stack es s) (c : Char) (frames : List Frame) :
    Reading front (pending ++ [c]) depth (frames.map Frame.construct) es
      (State.endLine { s.advance c with stack := frames } c) := by
  have hline : (place (front ++ (pending ++ [c]))).line =
      (place (front ++ pending)).line + [c].count '\n' := by
    rw [← List.append_assoc, ← place_past]
    rfl
  have hposition : s.position + c.utf8Size = Text.byteSize (front ++ (pending ++ [c])) := by
    rw [← List.append_assoc, Text.byteSize_append, h.position_eq]
    rfl
  unfold State.endLine
  split
  · rename_i hc
    subst hc
    refine ⟨?_, ?_, ?_, ?_, ?_, ?_, ?_, ?_, ?_⟩
    · simp [State.advance, h.before_eq]
    · simp [State.advance, h.pending_eq]
    · simpa [State.advance] using hposition
    · simp [State.advance, h.line_eq, hline]
    · simpa [State.advance] using h.depth_eq
    · simp
    · simpa [Event.Body.isHeader, State.advance] using h.header_eq
    · have hevents : ({ s.advance '\n' with stack := frames } : State).events = s.events := rfl
      show withoutLineEnds (State.emit _ _).events = _
      rw [State.emit_events, State.announcement, if_pos (by simp [Event.Body.isHeader]), hevents,
        ← h.events_eq]
      simp [withoutLineEnds]
    · show (State.emit _ _).problems = _
      rw [State.emit_problems]
      exact h.problems_eq
  · rename_i hc
    refine ⟨?_, ?_, hposition, ?_, h.depth_eq, rfl, h.header_eq, h.events_eq, h.problems_eq⟩
    · simp [State.advance, h.before_eq]
    · simp [State.advance, h.pending_eq]
    · rw [hline, List.count_singleton, if_neg (by simpa using hc)]
      exact h.line_eq

theorem take_same (h : Reading front pending depth stack es s) (c : Char) :
    Reading front (pending ++ [c]) depth stack es ((s.advance c).endLine c) := by
  have := h.take c s.stack
  rwa [h.stack_eq] at this

/-- A character that ends no line is read before it is looked at. -/
theorem advance (h : Reading front pending depth stack es s) {c : Char} (hc : c ≠ '\n') :
    Reading front (pending ++ [c]) depth stack es (s.advance c) := by
  have := h.take_same c
  rwa [State.endLine, if_neg hc] at this

theorem settle (h : Reading front pending depth stack es s) :
    Reading (front ++ pending) [] depth stack es s.settle :=
  { h with
    before_eq := by rw [List.append_nil]; exact h.before_eq
    pending_eq := by simp
    position_eq := by rw [List.append_nil]; exact h.position_eq
    line_eq := by rw [List.append_nil]; exact h.line_eq }

theorem push (h : Reading front pending depth stack es s) {k : Construct} (hk : k ≠ .text) :
    Reading front pending depth (k :: stack) es (s.push k) :=
  { h with
    depth_eq := by simp [State.push, hk, h.depth_eq]
    stack_eq := by simp [h.stack_eq] }

theorem pushText (h : Reading front pending depth stack es s) :
    Reading front pending (depth + 1) (.text :: stack) es (s.push .text) :=
  { h with
    depth_eq := by simp [State.push, h.depth_eq]
    stack_eq := by simp [h.stack_eq] }

theorem pop {k : Construct} (h : Reading front pending depth (k :: stack) es s)
    (hk : k ≠ .text) : Reading front pending depth stack es s.pop := by
  obtain ⟨frame, rest, hs, hframe, hrest⟩ := h.exists_frame
  have hpop : s.pop = { s with stack := rest } := by
    simp [State.pop, hs, hframe, hk]
  rw [hpop]
  exact { h with stack_eq := hrest }

theorem popText (h : Reading front pending (depth + 1) (.text :: stack) es s) :
    Reading front pending depth stack es s.pop := by
  obtain ⟨frame, rest, hs, hframe, hrest⟩ := h.exists_frame
  have hpop : s.pop = { s with stack := rest, depth := s.depth - 1 } := by
    simp [State.pop, hs, hframe]
  rw [hpop]
  exact { h with
    depth_eq := by simp [h.depth_eq]
    stack_eq := hrest }

/-- In place of the innermost construct another one is gone on with. -/
theorem become {k : Construct} (h : Reading front pending depth (k :: stack) es s)
    (k' : Construct) : Reading front pending depth (k' :: stack) es (s.become k') := by
  obtain ⟨frame, rest, hs, hframe, hrest⟩ := h.exists_frame
  have hbecome : s.become k' = { s with stack := { frame with construct := k' } :: rest } := by
    simp [State.become, hs]
  rw [hbecome]
  exact { h with stack_eq := by simp [hrest] }

/-- Text inside a slot lies deeper than other text. -/
theorem setDepth (h : Reading front pending depth stack es s) (depth' : Nat) :
    Reading front pending depth' stack es { s with depth := depth' } :=
  { h with depth_eq := rfl }

/-- Something is said that is not part of the header. -/
theorem emit (h : Reading front pending depth stack es s) (body : Event.Body)
    (hbody : body.isHeader = false) :
    Reading front pending depth stack (es ++ [(place (front ++ pending)).say depth body])
      (s.emit body) := by
  have hline : body ≠ .lineEnd := by
    rintro rfl
    exact absurd hbody (by decide)
  refine ⟨by simp [h.before_eq], by simp [h.pending_eq], ?_, by simp [h.line_eq],
    by simp [h.depth_eq], by simp [h.stack_eq], by simp [hbody], ?_,
    by rw [State.emit_problems, h.problems_eq]⟩
  · rw [State.emit_position, h.position_eq]
  · have hevents := h.events_eq
    rw [State.emit_events, State.announcement, h.header_eq, hbody, h.line_eq, h.depth_eq]
    unfold withoutLineEnds at hevents ⊢
    rw [List.filter_append, hevents]
    cases es <;> simp [announced, Place.say, hline]

/-- The pending text without the word at its end, as a slice. -/
theorem slice (word : List Char) (h : Reading front (pending ++ word) depth stack es s) :
    s.slice word.length = ⟨Text.byteSize front, String.ofList pending⟩ := by
  have hbefore : s.before.take word.length = word.reverse := by
    rw [h.before_eq, ← List.append_assoc, List.reverse_append]
    exact List.take_left' (by simp)
  have hpending : s.pending.drop word.length = pending.reverse := by
    rw [h.pending_eq, List.reverse_append]
    exact List.drop_left' (by simp)
  have hsize : Text.byteSize (front ++ (pending ++ word)) - Text.byteSize word -
      Text.byteSize pending = Text.byteSize front := by
    simp only [Text.byteSize_append]
    omega
  rw [State.slice, hbefore, hpending, h.position_eq, Text.Slice.endingAt, Text.byteSize_reverse,
    Text.byteSize_reverse, hsize, List.reverse_reverse]

theorem slice_one {c : Char} (h : Reading front (pending ++ [c]) depth stack es s) :
    s.slice 1 = ⟨Text.byteSize front, String.ofList pending⟩ :=
  h.slice [c]

/-- The line of a place does not change where no line ends. -/
theorem place_line {word : List Char} (hword : '\n' ∉ word) (front : List Char) :
    (place (front ++ word)).line = (place front).line := by
  rw [← place_past, Place.past, List.count_eq_zero.mpr hword, Nat.add_zero]

/-- The text before a directive is handed out. -/
theorem flush {word : List Char} (h : Reading front (pending ++ word) depth stack es s)
    (htop : s.top = .text) (hword : '\n' ∉ word) :
    Reading front (pending ++ word) depth stack (es ++ textEvents front pending depth)
      (s.flush word.length) := by
  have hdrop : s.pending.drop word.length = pending.reverse := by
    rw [h.pending_eq, List.reverse_append]
    exact List.drop_left' (by simp)
  unfold State.flush textEvents
  rw [htop, hdrop, h.slice word]
  by_cases hp : pending = []
  · simpa [hp] using h
  · have hsay := h.emit (.text ⟨Text.byteSize front, String.ofList pending⟩) rfl
    rw [← List.append_assoc, Place.say, place_line hword] at hsay
    simpa [hp, Place.quote] using hsay

/-- A directive takes over from the text before it. -/
theorem flush_settle {word : List Char} (h : Reading front (pending ++ word) depth stack es s)
    (htop : s.top = .text) (hword : '\n' ∉ word) :
    Reading (front ++ pending ++ word) [] depth stack (es ++ textEvents front pending depth)
      (s.flush word.length).settle := by
  have := (h.flush htop hword).settle
  rwa [← List.append_assoc] at this

end Reading

/-! ## Reading pieces of source -/

/-- Reading `cs`, which `rest` follows, leads from the states `P` to states
`Q`. -/
def Reads (kind : Kind) (rest cs : List Char) (P Q : State → Prop) : Prop :=
  ∀ s, P s → ∃ t, State.run { kind } s (cs ++ rest) = State.run { kind } t rest ∧ Q t

namespace Reads

variable {kind : Kind} {rest xs ys : List Char} {P P' Q Q' R : State → Prop}

theorem nil (h : ∀ s, P s → Q s) : Reads kind rest [] P Q :=
  fun s hs => ⟨s, rfl, h s hs⟩

theorem append (h : Reads kind (ys ++ rest) xs P Q) (h' : Reads kind rest ys Q R) :
    Reads kind rest (xs ++ ys) P R := by
  intro s hs
  obtain ⟨t, hst, ht⟩ := h s hs
  obtain ⟨u, htu, hu⟩ := h' t ht
  exact ⟨u, by rw [List.append_assoc, hst, htu], hu⟩

theorem mono (h : Reads kind rest xs P Q) (hP : ∀ s, P' s → P s) (hQ : ∀ s, Q s → Q' s) :
    Reads kind rest xs P' Q' := by
  intro s hs
  obtain ⟨t, hst, ht⟩ := h s (hP s hs)
  exact ⟨t, hst, hQ t ht⟩

theorem char {c : Char} (h : ∀ s, P s → Q (s.step { kind } c rest)) :
    Reads kind rest [c] P Q :=
  fun s hs => ⟨_, rfl, h s hs⟩

variable {front pending : List Char} {depth : Nat} {stack : List Construct} {es : List Event}

/-- A character that ends no line. -/
theorem symbol {c : Char} (hc : c ≠ '\n') (h : ∀ s, Reading front (pending ++ [c]) depth stack es
    s → Q (s.readChar { kind } c rest)) :
    Reads kind rest [c] (Reading front pending depth stack es) Q := by
  refine char ?_
  intro s hs
  rw [State.step, State.endLine, if_neg hc]
  exact h _ (hs.advance hc)

/-- A character that changes nothing. -/
theorem idle {c : Char} (h : ∀ s : State, s.top = stack.head?.getD .text →
    s.before = c :: (front ++ pending).reverse → s.readChar { kind } c rest = s) :
    Reads kind rest [c] (Reading front pending depth stack es)
      (Reading front (pending ++ [c]) depth stack es) := by
  refine char ?_
  intro s hs
  rw [State.step, h (s.advance c) hs.top (by simp [State.advance, hs.before_eq])]
  exact hs.take_same c

end Reads

/-! ## Reading outside code -/

theorem State.readText_found {s : State} {setting : Setting} {c : Char} {after : List Char}
    {d : Directive} (h : Directive.endingAt? s.before after = some d) :
    s.readText setting c after = s.obey d := by
  unfold State.readText
  rw [h]

theorem State.readText_quiet {s : State} {kind : Kind} {c : Char} {after : List Char}
    (h : Directive.endingAt? s.before after = none) : s.readText { kind } c after =
      if c = '(' then s.parenthesisBegins else if c = ')' then s.parenthesisEnds kind else s := by
  unfold State.readText
  rw [h]
  simp only
  split
  · rfl
  · rfl
  · rename_i hactive
    exact absurd hactive (by simp [Markup.Interest.active?])
  · rename_i hopen hclose _
    rw [if_neg (fun hc => hopen hc), if_neg (fun hc => hclose hc)]

section Directives

variable {kind : Kind} {rest : List Char} {front pending : List Char} {depth : Nat}
  {stack : List Construct} {es : List Event}

/-- Characters at which no directive ends are taken as they are, and so are
parentheses in text. -/
theorem reads_quiet (htop : (stack.head?.getD Construct.text).readsText = true) {text : List Char}
    (hquiet : Directive.Quiet (front ++ pending).reverse text rest)
    (hplain : stack.head?.getD .text = .text ∨ '(' ∉ text ∧ ')' ∉ text) :
    Reads kind rest text (Reading front pending depth stack es)
      (Reading front (pending ++ text) depth stack es) := by
  induction text generalizing pending with
  | nil => exact .nil fun s hs => by simpa using hs
  | cons c text ih =>
      have hplain' : stack.head?.getD .text = .text ∨ '(' ∉ text ∧ ')' ∉ text :=
        hplain.imp_right fun h => ⟨fun hm => h.1 (by simp [hm]), fun hm => h.2 (by simp [hm])⟩
      have hidle : Reads kind (text ++ rest) [c] (Reading front pending depth stack es)
          (Reading front (pending ++ [c]) depth stack es) := by
        refine .idle ?_
        intro s hs hbefore
        rw [State.readChar_readsText _ _ _ _ (hs ▸ htop),
          State.readText_quiet (by rw [hbefore]; exact hquiet.head)]
        rcases hplain with h | ⟨hopen, hclose⟩
        · simp [State.parenthesisBegins, State.parenthesisEnds, hs, h]
        · have hc : c ≠ '(' ∧ c ≠ ')' :=
            ⟨fun hc => hopen (by simp [hc]), fun hc => hclose (by simp [hc])⟩
          rw [if_neg hc.1, if_neg hc.2]
      have htail : Directive.Quiet (front ++ (pending ++ [c])).reverse text rest := by
        simpa using hquiet.tail
      have := hidle.append (ih htail hplain')
      simpa using this

/-- The characters of a word are no parentheses and end no line. -/
theorem word_chars (d : Directive) :
    '(' ∉ d.word.toList ∧ ')' ∉ d.word.toList ∧ '\n' ∉ d.word.toList := by
  have hall : ∀ d ∈ Directive.all,
      '(' ∉ d.word.toList ∧ ')' ∉ d.word.toList ∧ '\n' ∉ d.word.toList := by
    decide +kernel
  exact hall d (Directive.mem_all d)

/-- **A directive is obeyed at its last character.** -/
theorem reads_word (d : Directive) (htop : (stack.head?.getD Construct.text).readsText = true)
    (hrest : d = .conditionElse → rest.head? ≠ some 'i') {Q : State → Prop}
    (hQ : ∀ s, Reading front (pending ++ d.word.toList) depth stack es s → Q (s.obey d)) :
    Reads kind rest d.word.toList (Reading front pending depth stack es) Q := by
  obtain ⟨hopen, hclose, hline⟩ := word_chars d
  obtain ⟨text, c, hword⟩ : ∃ text c, d.word.toList = text ++ [c] := by
    obtain ⟨k, t, hw, -, -⟩ := Directive.exists_word d
    exact ⟨_, _, (List.dropLast_append_getLast (hw ▸ List.cons_ne_nil k t)).symm⟩
  rw [hword] at hopen hclose hline hQ
  rw [hword]
  have hquiet : Directive.Quiet (front ++ pending).reverse text ([c] ++ rest) :=
    Directive.quiet_word d _ hword
  refine (reads_quiet htop hquiet (Or.inr ⟨?_, ?_⟩)).append (.symbol ?_ fun s hs => ?_)
  · intro hm
    exact hopen (by simp [hm])
  · intro hm
    exact hclose (by simp [hm])
  · rintro rfl
    exact hline (by simp)
  · have hfound : Directive.endingAt? s.before rest = some d := by
      have := Directive.endingAt?_word d (front ++ pending).reverse hrest
      rwa [hword, ← List.reverse_append, List.append_assoc, ← List.append_assoc pending,
        ← hs.before_eq] at this
    rw [State.readChar_readsText _ _ _ _ (hs.top ▸ htop), State.readText_found hfound]
    rw [List.append_assoc] at hs
    exact hQ s hs

/-- A character that is in no directive ends none. -/
theorem endingAt?_foreign {c : Char} (hc : Directive.IsForeign c) (before : List Char) :
    Directive.endingAt? (c :: before) rest = none := by
  refine Directive.endingAt?_eq_none fun d hd => absurd hd ?_
  rw [Directive.ends_iff]
  intro h
  refine hc d (Directive.mem_all d) (List.mem_reverse.mp (h ▸ ?_))
  rw [Directive.recent]
  split <;> simp

/-- A parenthesis ends no directive. -/
theorem endingAt?_parenthesis {c : Char} (hc : c = '(' ∨ c = ')') (before : List Char) :
    Directive.endingAt? (c :: before) rest = none :=
  endingAt?_foreign (by rcases hc with rfl | rfl <;> decide +kernel) before

/-- An opening parenthesis outside code. -/
theorem reads_opening (htop : (stack.head?.getD Construct.text).readsText = true)
    {Q : State → Prop}
    (hQ : ∀ s, Reading front (pending ++ ['(']) depth stack es s → Q s.parenthesisBegins) :
    Reads kind rest ['('] (Reading front pending depth stack es) Q := by
  refine .symbol (by decide) ?_
  intro s hs
  have hbefore : s.before = '(' :: (front ++ pending).reverse := by
    rw [hs.before_eq]
    simp
  rw [State.readChar_readsText _ _ _ _ (hs.top ▸ htop),
    State.readText_quiet (by rw [hbefore]; exact endingAt?_parenthesis (Or.inl rfl) _)]
  exact hQ s hs

/-- A closing parenthesis outside code. -/
theorem reads_closing (htop : (stack.head?.getD Construct.text).readsText = true)
    {Q : State → Prop}
    (hQ : ∀ s, Reading front (pending ++ [')']) depth stack es s → Q (s.parenthesisEnds kind)) :
    Reads kind rest [')'] (Reading front pending depth stack es) Q := by
  refine .symbol (by decide) ?_
  intro s hs
  have hbefore : s.before = ')' :: (front ++ pending).reverse := by
    rw [hs.before_eq]
    simp
  rw [State.readChar_readsText _ _ _ _ (hs.top ▸ htop),
    State.readText_quiet (by rw [hbefore]; exact endingAt?_parenthesis (Or.inr rfl) _)]
  exact hQ s hs

end Directives

end Templating.Scan
