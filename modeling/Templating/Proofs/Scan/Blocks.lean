import Templating.Proofs.Scan.Fragments
import Templating.Proofs.Text.Trim

/-!
# Reading the constructs of a template

Each construct is read from the state of some content, in which text may still
be pending, to the state behind it. What the directives have in common is said
once: `reads_directive` for the text before them, `reads_braced` for code in
braces, `reads_header` for what stands in the parentheses of a block, and
`reads_arguments` for those of a call.
-/

namespace Templating.Scan

open Template (ArgumentText Balanced Code Plain Reference SlotName printArguments quoteArguments)

/-- Content has been read up to the end of `front`: the events `es` have been
said, but for the text that is still pending. -/
def Content (front : List Char) (depth : Nat) (stack : List Construct) (es : List Event)
    (s : State) : Prop :=
  ∃ settled pending said, front = settled ++ pending ∧
    es = said ++ textEvents settled pending depth ∧ Reading settled pending depth stack said s

variable {kind : Kind} {rest front : List Char} {depth : Nat} {stack : List Construct}
  {k : Construct} {es : List Event}

theorem Reading.content {s : State} (h : Reading front [] depth stack es s) :
    Content front depth stack es s :=
  ⟨front, [], es, by simp, by simp [textEvents], h⟩

/-- What is said just behind a stretch of source that it quotes. -/
theorem say_eq_quote (front cs : List Char) {word : List Char} (hword : '\n' ∉ word)
    (body : Text.Slice → Event.Body) :
    (place (front ++ cs ++ word)).say depth
      (body ⟨Text.byteSize front, String.ofList cs⟩) = (place front).quote depth cs body := by
  rw [Template.Place.say, Template.Place.quote, Reading.place_line hword, place_past, place_byte]

/-! ## Directives in content -/

/-- **A directive in content hands out the text before it.** -/
theorem reads_directive (d : Directive) (htop : stack.head?.getD .text = .text)
    (hrest : d = .conditionElse → rest.head? ≠ some 'i') {Q : State → Prop}
    (hQ : ∀ s settled pending said, Reading settled pending depth stack said s →
      Reading (front ++ d.word.toList) [] depth stack es (s.flush d.width).settle →
      Q (s.obey d)) :
    Reads kind rest d.word.toList (Content front depth stack es) Q := by
  rintro s ⟨settled, pending, said, rfl, rfl, hs⟩
  refine reads_word d (by rw [htop]; rfl) hrest (fun t ht => ?_) s hs
  exact hQ t _ _ _ ht (ht.flush_settle (ht.top.trans htop) (word_chars d).2.2)

/-- A directive that does no more than begin a construct. -/
inductive Begins : Directive → Construct → Prop where
  | expression (escaping : Escaping) : Begins (.expression escaping) (.expression escaping)
  | statement : Begins .statement .statement
  | condition : Begins .conditionBegin .condition
  | loop : Begins .loopBegin .loop
  | call (kind : CallKind) : Begins (.call kind) (.reference kind)

theorem reads_begin {d : Directive} (h : Begins d k) (htop : stack.head?.getD .text = .text) :
    Reads kind rest d.word.toList (Content front depth stack es)
      (Reading (front ++ d.word.toList) [] depth (k :: stack) es) := by
  refine reads_directive d htop (fun hd => ?_) fun s _ _ _ _ hs => ?_
  · subst hd
    cases h
  · cases h <;> exact hs.push (by simp)

/-! ## Code in braces -/

/-- Code that such a construct holds is said that way. -/
inductive Braced : Directive → Construct → (Text.Slice → Event.Body) → Prop where
  | expression (escaping : Escaping) :
      Braced (.expression escaping) (.expression escaping) (.expression escaping)
  | statement : Braced .statement .statement .statement

/-- **An expression or a statement is read up to its brace.** -/
theorem reads_braced {d : Directive} {body : Text.Slice → Event.Body} (h : Braced d k body)
    (code : Code) (htop : stack.head?.getD .text = .text) :
    Reads kind rest (d.word.toList ++ code.chars ++ ['\x7d']) (Content front depth stack es)
      (Reading (front ++ (d.word.toList ++ code.chars ++ ['\x7d'])) [] depth stack
        (es ++ [(place (front ++ d.word.toList)).quote depth code.chars body])) := by
  have hbegins : Begins d k := by
    cases h <;> constructor
  have hk : k.readsCode = true ∧ k.isArguments = false ∧ k ≠ .text := by
    cases h <;> simp [Construct.readsCode, Construct.isArguments]
  have hclose (s : State) (hs : s.top = k) (htext : s.pop.settle.top = .text) :
      s.closeBrace = s.pop.settle.emit (body (s.slice 1)) := by
    cases h <;> simp only [State.closeBrace, hs, htext, if_true]
  have hend : Reads kind rest ['\x7d']
      (Reading (front ++ d.word.toList) ([] ++ code.chars) depth (k :: stack) es)
      (Reading (front ++ (d.word.toList ++ code.chars ++ ['\x7d'])) [] depth stack
        (es ++ [(place (front ++ d.word.toList)).quote depth code.chars body])) := by
    refine .symbol (by decide) ?_
    intro s hs
    have hs' := (hs.pop hk.2.2).settle
    have hbody : (body (s.slice 1)).isHeader = false := by
      cases h <;> rfl
    have hsay := hs'.emit _ hbody
    rw [hs.slice_one, List.append_nil, List.nil_append, ← List.append_assoc,
      say_eq_quote _ _ (by decide)] at hsay
    rw [State.readChar_readsCode (hs.top ▸ hk.1)]
    show Reading _ _ _ _ _ s.closeBrace
    rw [hclose s hs.top (hs'.top.trans htop), hs.slice_one]
    simpa using hsay
  have hcode : Reads kind (['\x7d'] ++ rest) code.chars
      (Reading (front ++ d.word.toList) [] depth (k :: stack) es)
      (Reading (front ++ d.word.toList) ([] ++ code.chars) depth (k :: stack) es) :=
    reads_balanced code.balanced hk.1 (by simp [hk.2.1])
  exact ((reads_begin hbegins htop).append hcode).append hend

/-! ## Conditions and loops -/

/-- The header of such a construct stands in such a parenthesis and is said
that way. -/
inductive Headed : Construct → Construct → (Text.Slice → Event.Body) → Prop where
  | condition : Headed .condition .parentheses .conditionBegin
  | conditionElseIf : Headed .conditionElseIf .parentheses .conditionElseIf
  | loop : Headed .loop .loopHeader .loopBegin

/-- **A header is read up to its parenthesis.** Behind it the text that it
governs begins. -/
theorem reads_header {k' : Construct} {body : Text.Slice → Event.Body} (h : Headed k k' body)
    (code : Code) :
    Reads kind rest (['('] ++ code.chars ++ [')']) (Reading front [] depth (k :: stack) es)
      (Reading (front ++ (['('] ++ code.chars ++ [')'])) [] (depth + 1) (.text :: k :: stack)
        (es ++ [(place (front ++ ['('])).quote depth code.chars body])) := by
  have hk : k.readsText = true := by
    cases h <;> rfl
  have hk' : k'.readsCode = true ∧ k'.isArguments = false ∧ k' ≠ .text := by
    cases h <;> simp [Construct.readsCode, Construct.isArguments]
  have hopen : Reads kind (code.chars ++ ([')'] ++ rest)) ['(']
      (Reading front [] depth (k :: stack) es)
      (Reading (front ++ ['(']) [] depth (k' :: k :: stack) es) := by
    refine reads_opening ?_ fun s hs => ?_
    · exact hk
    have hbegins : s.parenthesisBegins = s.settle.push k' := by
      cases h <;> rw [State.parenthesisBegins, hs.top] <;> rfl
    rw [hbegins]
    exact hs.settle.push hk'.2.2
  have hcode : Reads kind ([')'] ++ rest) code.chars
      (Reading (front ++ ['(']) [] depth (k' :: k :: stack) es)
      (Reading (front ++ ['(']) ([] ++ code.chars) depth (k' :: k :: stack) es) :=
    reads_balanced code.balanced hk'.1 (by simp [hk'.2.1])
  have hclose : Reads kind rest [')']
      (Reading (front ++ ['(']) ([] ++ code.chars) depth (k' :: k :: stack) es)
      (Reading (front ++ (['('] ++ code.chars ++ [')'])) [] (depth + 1) (.text :: k :: stack)
        (es ++ [(place (front ++ ['('])).quote depth code.chars body])) := by
    refine .symbol (by decide) ?_
    intro s hs
    have hs' := hs.pop hk'.2.2
    have hends : s.closeParenthesis = s.pop.closeHeader body := by
      have htop := hs.top
      have htop' := hs'.top
      cases h <;> simp [State.closeParenthesis, htop, htop']
    have hbody : (body (s.pop.slice 1)).isHeader = false := by
      cases h <;> rfl
    have hsay := (hs'.settle.emit _ hbody).pushText
    rw [hs'.slice_one, List.append_nil, List.nil_append, ← List.append_assoc,
      say_eq_quote _ _ (by decide)] at hsay
    rw [State.readChar_readsCode (hs.top ▸ hk'.1)]
    show Reading _ _ _ _ _ s.closeParenthesis
    rw [hends, State.closeHeader, hs'.slice_one]
    simpa using hsay
  exact (hopen.append hcode).append hclose

/-- `@else` begins another branch. -/
theorem reads_otherwise (hk : k.isCondition = true) (hrest : rest.head? ≠ some 'i') :
    Reads kind rest "@else".toList (Content front (depth + 1) (.text :: k :: stack) es)
      (Reading (front ++ "@else".toList) [] (depth + 1) (.text :: k :: stack)
        (es ++ [(place front).say depth .conditionElse])) := by
  refine reads_directive .conditionElse rfl (fun _ => hrest) ?_
  intro s _ _ _ h hs
  have hsay := (hs.popText.emit .conditionElse rfl).pushText
  rw [Template.Place.say, List.append_nil, Reading.place_line (by decide)] at hsay
  show Reading _ _ _ _ _ (s.conditionElse _)
  rw [State.conditionElse, if_pos (by rw [h.inTextOf]; exact hk)]
  exact hsay

/-- `@elseif` ends a branch, and a header follows. -/
theorem reads_elseIf (hk : k.isCondition = true) :
    Reads kind rest "@elseif".toList (Content front (depth + 1) (.text :: k :: stack) es)
      (Reading (front ++ "@elseif".toList) [] depth (.conditionElseIf :: stack) es) := by
  refine reads_directive .conditionElseIf rfl (by simp) ?_
  intro s _ _ _ h hs
  have htext : k ≠ .text := by
    rintro rfl
    exact absurd hk (by decide)
  show Reading _ _ _ _ _ (s.conditionElseIf _)
  rw [State.conditionElseIf, if_pos (by rw [h.inTextOf]; exact hk)]
  exact (hs.popText.pop htext).push (by simp)

/-- A directive that ends a block of some sort and says so. -/
inductive Finishes : Directive → Construct → Event.Body → Prop where
  | condition : Finishes .conditionEnd .condition .conditionEnd
  | conditionElseIf : Finishes .conditionEnd .conditionElseIf .conditionEnd
  | loop : Finishes .loopEnd .loop .loopEnd

theorem reads_end {d : Directive} {body : Event.Body} (h : Finishes d k body) :
    Reads kind rest d.word.toList (Content front (depth + 1) (.text :: k :: stack) es)
      (Reading (front ++ d.word.toList) [] depth stack
        (es ++ [(place front).say depth body])) := by
  refine reads_directive d rfl (fun hd => ?_) fun s _ _ _ hin hs => ?_
  · subst hd
    cases h
  · have htext : k ≠ .text := by
      cases h <;> simp
    have hbody : body.isHeader = false := by
      cases h <;> rfl
    have hobey : s.obey d = (((s.flush d.width).settle.pop).emit body).pop := by
      cases h <;> simp [State.obey, State.endBlock, hin.inTextOf, Construct.isCondition]
    have hsay := (hs.popText.emit _ hbody).pop htext
    rw [Template.Place.say, List.append_nil, Reading.place_line (word_chars d).2.2] at hsay
    rw [hobey]
    exact hsay

/-! ## Comments -/

theorem reads_comment (remark : Template.Remark) (htop : stack.head?.getD .text = .text) :
    Reads kind rest ("<%--".toList ++ remark.chars ++ "--%>".toList)
      (Content front depth stack es)
      (Reading (front ++ ("<%--".toList ++ remark.chars ++ "--%>".toList)) [] depth stack es) := by
  rintro s ⟨settled, pending, said, rfl, rfl, hs⟩
  have hword : Reads kind (remark.chars ++ "--%>".toList ++ rest) "<%--".toList
      (Reading settled pending depth stack said)
      (Reading settled (pending ++ "<%--".toList) depth (.comment :: stack)
        (said ++ textEvents settled pending depth)) := by
    refine reads_word .comment (by rw [htop]; rfl) (by simp) ?_
    intro t ht
    exact (ht.flush (ht.top.trans htop) (word_chars .comment).2.2).push (by simp)
  have := hword.append (reads_remark remark)
  simpa using this s hs

/-! ## Calls -/

/-- The name of a call is read up to its parenthesis. -/
theorem reads_reference (callKind : CallKind) (reference : Reference) :
    Reads kind rest (reference.chars ++ ['('])
      (Reading front [] depth (.reference callKind :: stack) es)
      (Reading (front ++ (reference.chars ++ ['('])) [] depth
        (.arguments { kind := callKind, reference := String.ofList reference.chars } 0 :: stack)
        es) := by
  have hreadChar {s : State} {c : Char} {after : List Char} (hs : s.top = .reference callKind) :
      s.readChar { kind } c after = if c = '(' then s.beginArguments callKind else s := by
    unfold State.readChar
    rw [hs]
  have hname (cs pending : List Char) (hcs : ∀ c ∈ cs, c ≠ '(') : Reads kind ('(' :: rest) cs
      (Reading front pending depth (.reference callKind :: stack) es)
      (Reading front (pending ++ cs) depth (.reference callKind :: stack) es) := by
    induction cs generalizing pending with
    | nil => exact .nil fun s hs => by simpa using hs
    | cons c cs ih =>
        obtain ⟨hc, hcs⟩ := List.forall_mem_cons.mp hcs
        have hchar : Reads kind (cs ++ '(' :: rest) [c]
            (Reading front pending depth (.reference callKind :: stack) es)
            (Reading front (pending ++ [c]) depth (.reference callKind :: stack) es) :=
          .idle fun s hs _ => by rw [hreadChar hs, if_neg hc]
        simpa using hchar.append (ih (pending ++ [c]) hcs)
  refine (hname reference.chars [] fun c hc => (reference.solid c hc).2).append
    (.symbol (by decide) fun s hs => ?_)
  -- The scanner drops blanks from the name, and this name has none.
  have hfilter : ((s.pending.drop 1).reverse.filter fun c => !Text.isBlank c) =
      reference.chars := by
    rw [hs.pending_eq, List.nil_append, List.reverse_append]
    simp only [List.reverse_singleton, List.singleton_append, List.drop_one, List.tail_cons,
      List.reverse_reverse]
    exact List.filter_eq_self.mpr fun c hc => by simp [(reference.solid c hc).1]
  rw [hreadChar hs.top, if_pos rfl, State.beginArguments]
  simp only [hfilter]
  rw [if_neg (by simpa using reference.nonempty)]
  exact hs.settle.become _

/-- The constructs behind a call: a layout stays open. -/
def behindCall (stack : List Construct) : CallKind → List Construct
  | .tag => stack
  | .layout => .layoutBody :: stack

/-- The arguments of a call as the scanner has them, once it stands behind one
of them. -/
theorem lastArgument_eq {pending gap : List Char} {s : State} {c : Char}
    (hgap : ∀ c ∈ gap, Text.isBlank c = true) (a : ArgumentText)
    (hpending : pending = gap ++ a.chars)
    (hs : Reading front (pending ++ [c]) depth stack es s) :
    s.lastArgument = [⟨(place (front ++ gap)).byte, String.ofList a.chars⟩] := by
  have htrim := Text.trim_slice (Text.byteSize front) gap hgap a.trimmed
  unfold State.lastArgument
  rw [hs.slice_one, hpending, htrim]
  simp [a.nonempty, String.ofList_eq_empty_iff]

/-- Blanks are code. -/
theorem balanced_of_blank {gap : List Char} (hgap : ∀ c ∈ gap, Text.isBlank c = true) :
    Balanced true gap := by
  induction gap with
  | nil => exact .nil
  | cons c gap ih =>
      obtain ⟨hc, hgap⟩ := List.forall_mem_cons.mp hgap
      have hsolid : (['(', ')', '\x7b', '\x7d', '"'] ++ [',', '<', '>']).all
          (fun x => !Text.isBlank x) = true := by
        decide
      have hne (x : Char) (hx : x ∈ ['(', ')', '\x7b', '\x7d', '"'] ++ [',', '<', '>']) :
          x ≠ c := by
        rintro rfl
        have := List.all_eq_true.mp hsolid x hx
        rw [hc] at this
        exact absurd this (by simp)
      refine .plain (fun hm => ?_) (fun _ hm => ?_) (ih hgap)
      · exact hne c (List.mem_append_left _ hm) rfl
      · exact hne c (List.mem_append_right _ hm) rfl

/-- At the comma behind an argument. -/
theorem reads_comma (call : PendingCall) {gap : List Char}
    (hgap : ∀ c ∈ gap, Text.isBlank c = true) (a : ArgumentText) :
    Reads kind rest [',']
      (Reading front (gap ++ a.chars) depth (.arguments call 0 :: stack) es)
      (Reading (front ++ gap ++ (a.chars ++ [','])) [] depth
        (.arguments { call with arguments := call.arguments ++
          [⟨(place (front ++ gap)).byte, String.ofList a.chars⟩] } 0 :: stack) es) := by
  refine .symbol (by decide) ?_
  intro s hs
  have hlast := lastArgument_eq hgap a rfl hs
  rw [State.readChar_readsCode (hs.top ▸ rfl)]
  show Reading _ _ _ _ _ s.splitArgument
  unfold State.splitArgument
  rw [hs.top]
  simp only [List.head?_cons, Option.getD_some, hlast]
  simpa using (hs.become _).settle

/-- At the parenthesis that closes a call. -/
theorem reads_callEnd (call : PendingCall) {pending : List Char} (last : List Text.Slice)
    (hlast : ∀ s, Reading front (pending ++ [')']) depth (.arguments call 0 :: stack) es s →
      s.lastArgument = last) :
    Reads kind rest [')'] (Reading front pending depth (.arguments call 0 :: stack) es)
      (Reading (front ++ pending ++ [')']) [] depth (behindCall stack call.kind)
        (es ++ [(place (front ++ pending)).say depth
          (.call call.kind call.reference (call.arguments ++ last))])) := by
  refine .symbol (by decide) ?_
  intro s hs
  have hsay := (hs.pop (by simp)).settle.emit
    (.call call.kind call.reference (call.arguments ++ last)) rfl
  rw [Template.Place.say, List.append_nil, ← List.append_assoc,
    Reading.place_line (by decide)] at hsay
  rw [State.readChar_readsCode (hs.top ▸ rfl)]
  show Reading _ _ _ _ _ s.closeParenthesis
  rw [State.closeParenthesis, hs.top]
  show Reading _ _ _ _ _ (s.closeCall call)
  rw [State.closeCall, hlast s hs]
  obtain ⟨callKind, reference, arguments⟩ := call
  cases callKind with
  | tag => exact hsay
  | layout => exact hsay.push (by simp)

/-- **The arguments of a call are read one by one**, up to the parenthesis that
closes the call. -/
theorem reads_arguments {gap : List Char} (hgap : ∀ c ∈ gap, Text.isBlank c = true)
    (arguments : List ArgumentText) (call : PendingCall) {front blank : List Char}
    (hblank : ∀ c ∈ blank, Text.isBlank c = true) :
    Reads kind rest (printArguments gap arguments ++ [')'])
      (Reading front blank depth (.arguments call 0 :: stack) es)
      (Reading (front ++ blank ++ (printArguments gap arguments ++ [')'])) [] depth
        (behindCall stack call.kind)
        (es ++ [(place (front ++ blank ++ printArguments gap arguments)).say depth
          (.call call.kind call.reference
            (call.arguments ++ quoteArguments gap (place (front ++ blank)) arguments))])) := by
  have hcode (a : ArgumentText) {after : List Char} {front blank : List Char} (call : PendingCall) :
      Reads kind after a.chars (Reading front blank depth (.arguments call 0 :: stack) es)
        (Reading front (blank ++ a.chars) depth (.arguments call 0 :: stack) es) :=
    reads_balanced a.balanced rfl fun _ => rfl
  induction arguments generalizing call front blank with
  | nil =>
      have hend : Reads kind rest [')'] (Reading front blank depth (.arguments call 0 :: stack) es)
          _ := reads_callEnd call [] fun s hs => by
        have htrim := Text.trim_slice (Text.byteSize front) blank hblank
          (show Text.trim [] = [] from rfl)
        rw [List.append_nil] at htrim
        rw [State.lastArgument, hs.slice_one, htrim]
        rfl
      simpa [printArguments, quoteArguments] using hend
  | cons a arguments ih =>
      -- Behind the last argument stands the parenthesis, behind the others a comma.
      cases arguments with
      | nil =>
          have hend : Reads kind rest [')']
              (Reading front (blank ++ a.chars) depth (.arguments call 0 :: stack) es) _ :=
            reads_callEnd call _ fun s hs => lastArgument_eq hblank a rfl hs
          simpa [printArguments, quoteArguments] using (hcode a call).append hend
      | cons b arguments =>
          let call' : PendingCall := { call with arguments := call.arguments ++
            [⟨(place (front ++ blank)).byte, String.ofList a.chars⟩] }
          have hcomma (after : List Char) : Reads kind after [',']
              (Reading front (blank ++ a.chars) depth (.arguments call 0 :: stack) es)
              (Reading (front ++ blank ++ (a.chars ++ [','])) [] depth
                (.arguments call' 0 :: stack) es) := reads_comma call hblank a
          have hgap' (after : List Char) : Reads kind after gap
              (Reading (front ++ blank ++ (a.chars ++ [','])) [] depth
                (.arguments call' 0 :: stack) es)
              (Reading (front ++ blank ++ (a.chars ++ [','])) ([] ++ gap) depth
                (.arguments call' 0 :: stack) es) :=
            reads_balanced (balanced_of_blank hgap) rfl fun _ => rfl
          have := (hcode a call).append ((hcomma _).append ((hgap' _).append (ih call' hgap)))
          simpa [printArguments, quoteArguments, call'] using this

/-- **A call is read from its name to its parenthesis.** -/
theorem reads_call {gap : List Char} (hgap : ∀ c ∈ gap, Text.isBlank c = true)
    (callKind : CallKind) (reference : Reference) (arguments : List ArgumentText)
    (htop : stack.head?.getD .text = .text) :
    Reads kind rest ((Directive.call callKind).word.toList ++ reference.chars ++ ['('] ++
        printArguments gap arguments ++ [')'])
      (Content front depth stack es)
      (Reading (front ++ ((Directive.call callKind).word.toList ++ reference.chars ++ ['('] ++
          printArguments gap arguments ++ [')'])) [] depth (behindCall stack callKind)
        (es ++ [Template.quoteCall gap (place (front ++ (Directive.call callKind).word.toList))
          depth callKind reference arguments])) := by
  have hbegin (after : List Char) : Reads kind after (Directive.call callKind).word.toList
      (Content front depth stack es) _ := reads_begin (.call callKind) htop
  have hname (after : List Char) : Reads kind after (reference.chars ++ ['('])
      (Reading (front ++ (Directive.call callKind).word.toList) [] depth
        (.reference callKind :: stack) es) _ := reads_reference callKind reference
  have harguments : Reads kind rest (printArguments gap arguments ++ [')'])
      (Reading (front ++ (Directive.call callKind).word.toList ++ (reference.chars ++ ['(']))
        [] depth (.arguments { kind := callKind, reference := String.ofList reference.chars } 0 ::
          stack) es) _ := reads_arguments hgap arguments _ (by simp)
  have := (hbegin _).append ((hname _).append harguments)
  simpa [Template.quoteCall] using this

/-! ## Slots of a layout call -/

/-- The head of a slot. -/
theorem reads_slot (name : SlotName) :
    Reads kind rest ("@define(".toList ++ name.chars ++ [')'])
      (Reading front [] depth (.layoutBody :: stack) es)
      (Reading (front ++ ("@define(".toList ++ name.chars ++ [')'])) [] (depth + 3)
        (.text :: .slot :: .layoutBody :: stack)
        (es ++ [(place (front ++ "@define(".toList)).quote depth name.chars .slotBegin])) := by
  have hword (after : List Char) : Reads kind after "@define".toList
      (Reading front [] depth (.layoutBody :: stack) es)
      (Reading (front ++ "@define".toList) [] depth (.slot :: .layoutBody :: stack) es) := by
    refine reads_word .slotBegin rfl (by simp) ?_
    intro s hs
    have htop : s.top = .layoutBody := hs.top
    show Reading _ _ _ _ _ s.beginSlot
    rw [State.beginSlot, if_pos htop]
    exact hs.settle.push (by simp)
  have hopen (after : List Char) : Reads kind after ['(']
      (Reading (front ++ "@define".toList) [] depth (.slot :: .layoutBody :: stack) es)
      (Reading (front ++ "@define(".toList) [] depth (.slot :: .layoutBody :: stack) es) := by
    refine reads_opening rfl ?_
    intro s hs
    rw [State.parenthesisBegins, hs.top]
    simpa using hs.settle
  have hname : Reads kind ([')'] ++ rest) name.chars
      (Reading (front ++ "@define(".toList) [] depth (.slot :: .layoutBody :: stack) es)
      (Reading (front ++ "@define(".toList) ([] ++ name.chars) depth
        (.slot :: .layoutBody :: stack) es) := by
    refine reads_quiet rfl (Directive.quiet_of_plain name.plain ?_) (Or.inr name.bare)
    have hforeign : Directive.IsForeign '(' := by decide +kernel
    simpa using Directive.Firm.of_foreign hforeign (front ++ "@define".toList).reverse _
  have hclose : Reads kind rest [')']
      (Reading (front ++ "@define(".toList) ([] ++ name.chars) depth
        (.slot :: .layoutBody :: stack) es)
      (Reading (front ++ ("@define(".toList ++ name.chars ++ [')'])) [] (depth + 3)
        (.text :: .slot :: .layoutBody :: stack)
        (es ++ [(place (front ++ "@define(".toList)).quote depth name.chars .slotBegin])) := by
    refine reads_closing rfl ?_
    intro s hs
    have htrim : (s.slice 1).trim =
        ⟨Text.byteSize (front ++ "@define(".toList), String.ofList name.chars⟩ := by
      rw [hs.slice_one]
      exact Text.trim_slice _ [] (by simp) name.trimmed
    have hsay := (hs.emit (.slotBegin (s.slice 1).trim) rfl).settle.pushText.setDepth
      (depth + 3)
    rw [htrim, List.nil_append, ← List.append_assoc, say_eq_quote _ _ (by decide)] at hsay
    have hdepth : (((s.emit (.slotBegin ⟨Text.byteSize (front ++ "@define(".toList),
        String.ofList name.chars⟩)).settle).push .text).depth + 2 = depth + 3 := by
      rw [(hs.emit (.slotBegin _) rfl).settle.pushText.depth_eq]
    rw [State.parenthesisEnds, hs.top]
    show Reading _ _ _ _ _ s.beginSlotText
    rw [State.beginSlotText, htrim]
    simp only [hdepth]
    simpa using hsay
  have := (hword _).append ((hopen _).append (hname.append hclose))
  simpa using this

/-- The end of a slot. -/
theorem reads_slotEnd :
    Reads kind rest "@enddefine".toList
      (Content front (depth + 3) (.text :: .slot :: stack) es)
      (Reading (front ++ "@enddefine".toList) [] depth stack
        (es ++ [(place front).say depth .slotEnd])) := by
  refine reads_directive .slotEnd rfl (by simp) ?_
  intro s _ _ _ h hs
  have hpop := hs.popText.pop (by simp)
  have hsay := (hpop.setDepth depth).emit .slotEnd rfl
  rw [Template.Place.say, List.append_nil, Reading.place_line (by decide)] at hsay
  show Reading _ _ _ _ _ (s.endSlot _)
  rw [State.endSlot, if_pos (by rw [h.inTextOf]; rfl)]
  simp only [hpop.depth_eq, Nat.add_sub_cancel]
  exact hsay

/-- The end of a layout call. -/
theorem reads_layoutEnd :
    Reads kind rest "@endlayout".toList (Reading front [] depth (.layoutBody :: stack) es)
      (Reading (front ++ "@endlayout".toList) [] depth stack
        (es ++ [(place front).say depth .layoutEnd])) := by
  refine reads_word .layoutEnd rfl (by simp) ?_
  intro s hs
  have hsay := (hs.pop (by simp)).settle.emit .layoutEnd rfl
  rw [Template.Place.say, List.append_nil, List.nil_append,
    Reading.place_line (word_chars .layoutEnd).2.2] at hsay
  have htop : s.top = .layoutBody := hs.top
  show Reading _ _ _ _ _ s.endLayout
  rw [State.endLayout, if_pos htop]
  exact hsay

end Templating.Scan
