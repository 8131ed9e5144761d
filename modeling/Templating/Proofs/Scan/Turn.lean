import Templating.Proofs.Scan.Invariant

/-!
# Text and frames

`Move` says what reading a character does to the blocks of a template; `Turn`
says what it does to the pending text and to the frames on the stack. A turn
lets go of pending text, hands it out or quotes it, or begins, changes or ends
one construct, and it carries what the scanner has made sure of. What a turn may
do depends on how the stack is layered: on constructs that hold content or the
header of one there may be a comment or a call, and on those and on code only
brackets and strings.
-/

namespace Templating

/-- The event marks a place in the template: it quotes nothing, and ends neither
a line nor the header nor the template. -/
def Event.Body.isMark : Event.Body → Bool
  | .conditionElse | .conditionEnd | .loopEnd | .layoutEnd | .slotEnd | .elementOpened _
  | .elementClosed _ | .attributeBegun .. => true
  | _ => false

namespace Scan

namespace Construct

/-- Brackets and strings inside code. -/
def isInner : Construct → Bool
  | block | parentheses | string _ => true
  | _ => false

/-- The construct is neither inside code nor a call nor a comment. -/
def isOuter : Construct → Bool
  | block | parentheses | string _ | reference _ | arguments .. | comment => false
  | _ => true

/-- The construct as it was when it was begun: strings and calls change until
they end. -/
def begun : Construct → Construct
  | string _ => string false
  | arguments call _ => reference call.kind
  | k => k

/-- The arguments that the construct has come to. -/
def held : Construct → List Text.Slice
  | arguments call _ => call.arguments
  | _ => []

theorem isInner_of_begun {k k' : Construct} (h : k.begun = k'.begun) :
    k'.isInner = k.isInner := by
  cases k <;> cases k' <;> first | rfl | exact absurd h (by simp [begun])

theorem comment_of_begun {k k' : Construct} (h : k.begun = k'.begun) :
    k' = comment ↔ k = comment := by
  cases k <;> cases k' <;> simp_all [begun]

theorem held_of_isOuter {k : Construct} (h : k.isOuter = true) : k.held = [] := by
  cases k <;> first | rfl | exact absurd h (by simp [isOuter])

theorem not_isInner_of_isOuter {k : Construct} (h : k.isOuter = true) : k.isInner = false := by
  cases k <;> first | rfl | exact absurd h (by simp [isOuter])

theorem isDeclaration_of {k : Construct} (h : k = imported ∨ k = param) :
    k.isDeclaration = true := by
  rcases h with rfl | rfl <;> rfl

theorem isOuter_of_isDeclaration {k : Construct} (h : k.isDeclaration = true) :
    k.isOuter = true := by
  cases k <;> first | rfl | exact absurd h (by simp [isDeclaration])

end Construct

/-! ## Layers -/

/-- No frame is inside code, a call or a comment. -/
def AllOuter (stack : List Frame) : Prop :=
  ∀ frame ∈ stack, frame.construct.isOuter = true

/-- Brackets and strings may stand on anything but a comment; everything else
stands on outer frames only. -/
def Layered : List Frame → Prop
  | [] => True
  | frame :: rest =>
      if frame.construct.isInner = true then
        Layered rest ∧ rest.head?.map Frame.construct ≠ some .comment
      else AllOuter rest

theorem AllOuter.tail {stack : List Frame} (h : AllOuter stack) : AllOuter stack.tail :=
  fun frame hf => h frame (List.mem_of_mem_tail hf)

theorem AllOuter.cons {stack : List Frame} (h : AllOuter stack) {frame : Frame}
    (hf : frame.construct.isOuter = true) : AllOuter (frame :: stack) :=
  List.forall_mem_cons.mpr ⟨hf, h⟩

theorem AllOuter.layered {stack : List Frame} (h : AllOuter stack) : Layered stack := by
  cases stack with
  | nil => trivial
  | cons frame rest =>
      have hf := Construct.not_isInner_of_isOuter (h frame (by simp))
      rw [Layered, if_neg (by simp [hf])]
      exact h.tail

theorem Layered.tail {stack : List Frame} (h : Layered stack) : Layered stack.tail := by
  cases stack with
  | nil => trivial
  | cons frame rest =>
      rw [Layered] at h
      split at h
      · exact h.1
      · exact AllOuter.layered h

/-- Below what is not inside code there are outer frames only. -/
theorem Layered.tail_outer {s : State} (h : Layered s.stack) (hs : s.top.isInner = false) :
    AllOuter s.stack.tail := by
  unfold State.top at hs
  cases hstack : s.stack with
  | nil => exact fun _ hf => absurd hf (by simp)
  | cons frame rest =>
      rw [hstack] at h hs
      rw [Layered, if_neg (by simp [hs])] at h
      exact h

theorem Layered.all_outer {s : State} (h : Layered s.stack) (hs : s.top.isOuter = true) :
    AllOuter s.stack := by
  have htail := h.tail_outer (Construct.not_isInner_of_isOuter hs)
  unfold State.top at hs
  cases hstack : s.stack with
  | nil => exact fun _ hf => absurd hf (by simp)
  | cons frame rest =>
      rw [hstack] at hs htail
      exact htail.cons hs

/-! ## Turns -/

/-- The event is no run of text and quotes one slice, trimmed or as it is; a
parameter that it declares is read from there. -/
structure Quotes (slice : Text.Slice) (body : Event.Body) : Prop where
  slices : body.slices = [slice] ∨ body.slices = [slice.trim]
  noText : ∀ run, body ≠ .text run
  scanned : ∀ declaration param, body = .param declaration param →
    Param.ofDeclaration declaration.text = .ok param

open State in
/-- One turn of the scanner. -/
inductive Turn : State → State → Prop where
  | keep (s : State) (n : Nat) : Turn s (s.keep n)
  | handOut (s : State) (n m : Nat) : m ≤ n → Turn s ((s.flush n).keep m)
  | markup (s : State) (elements : List Markup.Element) (closingTag : Bool) :
      Turn s { s with elements, closingTag }
  | report (s : State) (fault : Fault) : (∀ k, fault ≠ .unterminated k) →
      Turn s (s.report fault)
  | deepen (s : State) (depth : Nat) : Turn s { s with depth }
  | say (s : State) (body : Event.Body) : body.isMark = true → Turn s (s.emit body)
  | quote (s : State) (n : Nat) (body : Event.Body) : AllOuter s.stack →
      n ≤ s.pending.length → Quotes (s.slice n) body → Turn s (s.settle.emit body)
  | leaveQuoting (s : State) (n : Nat) (body : Event.Body) : AllOuter s.stack →
      n ≤ s.pending.length → Quotes (s.slice n) body → Turn s (s.pop.settle.emit body)
  | split (s : State) (call : PendingCall) : s.top = .arguments call 0 →
      1 ≤ s.pending.length →
      Turn s (s.become (.arguments { call with
        arguments := call.arguments ++ s.lastArgument } 0)).settle
  | call (s : State) (call : PendingCall) (angles : Nat) : s.top = .arguments call angles →
      1 ≤ s.pending.length →
      Turn s (s.pop.settle.emit
        (.call call.kind call.reference (call.arguments ++ s.lastArgument)))
  | comment (s : State) (n : Nat) : AllOuter s.stack → Turn s ((s.flush n).push .comment)
  | commentEnd (s : State) : s.top = .comment → Turn s s.pop.settle
  | inside (s : State) (k : Construct) : k.isInner = true → k.begun = k →
      s.top ≠ .comment → Turn s (s.push k)
  | enter (s : State) (k : Construct) : k.isInner = false → k ≠ .comment → k.begun = k →
      AllOuter s.stack → Turn s (s.push k)
  | leave (s : State) : s.top.held = [] → s.top ≠ .comment → Turn s s.pop
  | goOn (s : State) (k : Construct) : s.top.begun = k.begun → s.top.held = k.held →
      Turn s (s.become k)

/-- A chain of turns. -/
def Turns : State → State → Prop :=
  Relation.ReflTransGen Turn

namespace Turns

theorem refl (s : State) : Turns s s :=
  Relation.ReflTransGen.refl

theorem trans {s t u : State} (h : Turns s t) (h' : Turns t u) : Turns s u :=
  Relation.ReflTransGen.trans h h'

theorem single {s t : State} (h : Turn s t) : Turns s t :=
  Relation.ReflTransGen.single h

/-- What every turn preserves, a chain of turns preserves. -/
theorem preserves {P : State → Prop} (hturn : ∀ {s t : State}, Turn s t → P s → P t)
    {s t : State} (h : Turns s t) (hs : P s) : P t := by
  induction h with
  | refl => exact hs
  | tail _ hst ih => exact hturn hst ih

end Turns

namespace State

/-! ## Text that is let go of -/

theorem turns_settle (s : State) : Turns s s.settle :=
  .single (.keep s 0)

theorem turns_flush_settle (s : State) (n : Nat) : Turns s (s.flush n).settle :=
  .single (.handOut s n 0 (Nat.zero_le _))

theorem turns_settle_pop (s : State) (hs : s.top.isOuter = true) : Turns s s.settle.pop := by
  refine (turns_settle s).trans (.single (.leave _ ?_ ?_))
  · rw [settle_top]
    exact Construct.held_of_isOuter hs
  · rw [settle_top]
    intro hc
    rw [hc] at hs
    exact absurd hs (by decide)

/-! ## Code -/

section Code

variable (s : State) (h : Layered s.stack) (hp : 1 ≤ s.pending.length)

include h hp

theorem turns_closeBrace : Turns s s.closeBrace := by
  have done (body : Text.Slice → Event.Body) (hbody : ∀ x, Quotes x (body x))
      (htop : s.top.isOuter = true) :
      Turns s (if s.pop.settle.top = .text then s.pop.settle.emit (body (s.slice 1))
        else s.pop.settle) := by
    split
    · exact .single (.leaveQuoting s 1 _ (h.all_outer htop) hp (hbody _))
    · rw [pop_settle]
      exact turns_settle_pop s htop
  unfold closeBrace
  split
  · rename_i htop
    exact .single (.leave s (by rw [htop]; rfl) (by simp [htop]))
  · rename_i e htop
    exact done (.expression e) (fun x => ⟨Or.inl rfl, by simp, by simp⟩) (by rw [htop]; rfl)
  · rename_i htop
    exact done .statement (fun x => ⟨Or.inl rfl, by simp, by simp⟩) (by rw [htop]; rfl)
  · exact .refl s

omit h in
theorem turns_closeHeader (hs : AllOuter s.stack) (body : Text.Slice → Event.Body)
    (hbody : ∀ x, Quotes x (body x)) : Turns s (s.closeHeader body) :=
  (Turns.single (.quote s 1 _ hs hp (hbody _))).trans
    (.single (.enter _ .text rfl (by simp) rfl (by simpa using hs)))

omit h in
theorem turns_closeCall {call : PendingCall} {angles : Nat} (htop : s.top = .arguments call angles)
    (hs : AllOuter s.stack.tail) : Turns s (s.closeCall call) := by
  have hcall := Turns.single (Turn.call s call angles htop hp)
  unfold closeCall
  simp only
  split
  · exact hcall
  · exact hcall.trans (.single (.enter _ .layoutBody rfl (by simp) rfl (by simpa using hs)))

theorem turns_closeParenthesis : Turns s s.closeParenthesis := by
  unfold closeParenthesis
  split
  · rename_i htop
    have hpop : Turns s s.pop := .single (.leave s (by rw [htop]; rfl) (by simp [htop]))
    have hlayered : Layered s.pop.stack := by
      rw [pop_stack]
      exact h.tail
    simp only
    split
    · rename_i h'
      exact hpop.trans (turns_closeHeader _ (by simpa using hp)
        (hlayered.all_outer (by rw [h']; rfl)) _ fun x => ⟨Or.inl rfl, by simp, by simp⟩)
    · rename_i h'
      exact hpop.trans (turns_closeHeader _ (by simpa using hp)
        (hlayered.all_outer (by rw [h']; rfl)) _ fun x => ⟨Or.inl rfl, by simp, by simp⟩)
    · exact hpop
  · rename_i htop
    have hpop : Turns s s.pop := .single (.leave s (by rw [htop]; rfl) (by simp [htop]))
    have hlayered : Layered s.pop.stack := by
      rw [pop_stack]
      exact h.tail
    simp only
    split
    · rename_i h'
      exact hpop.trans (turns_closeHeader _ (by simpa using hp)
        (hlayered.all_outer (by rw [h']; rfl)) _ fun x => ⟨Or.inl rfl, by simp, by simp⟩)
    · exact hpop
  · rename_i htop
    exact turns_closeCall s hp htop (h.tail_outer (by rw [htop]; rfl))
  · exact .refl s

omit hp in
theorem turns_openParenthesis : Turns s s.openParenthesis := by
  unfold openParenthesis
  split
  · rename_i htop
    exact .single (.inside s _ rfl rfl (by simp [htop]))
  · rename_i htop
    exact .single (.inside s _ rfl rfl (by simp [htop]))
  · rename_i htop
    exact .single (.enter s _ rfl (by simp) rfl (h.all_outer (by rw [htop]; rfl)))
  · exact .refl s

omit h in
theorem turns_splitArgument : Turns s s.splitArgument := by
  unfold splitArgument
  split
  · rename_i htop
    exact .single (.split s _ htop hp)
  · exact .refl s

omit h hp in
theorem turns_openAngle (after : List Char) : Turns s (s.openAngle after) := by
  unfold openAngle
  split
  · rename_i htop
    split
    · exact .single (.goOn s _ (by rw [htop]; rfl) (by rw [htop]; rfl))
    · exact .refl s
  · exact .refl s

omit h hp in
theorem turns_closeAngle : Turns s s.closeAngle := by
  unfold closeAngle
  split
  · rename_i htop
    split
    · exact .refl s
    · exact .single (.goOn s _ (by rw [htop]; rfl) (by rw [htop]; rfl))
  · exact .refl s

theorem turns_readCode (c : Char) (after : List Char) (hs : s.top ≠ .comment) :
    Turns s (s.readCode c after) := by
  unfold readCode
  split
  · exact .single (.inside s _ rfl rfl hs)
  · exact .single (.inside s _ rfl rfl hs)
  · exact turns_closeBrace s h hp
  · exact turns_openParenthesis s h
  · exact turns_closeParenthesis s h hp
  · exact turns_splitArgument s hp
  · exact turns_openAngle s after
  · exact turns_closeAngle s
  · exact .refl s

end Code

theorem turns_readString (s : State) (c : Char) {escaping : Bool}
    (htop : s.top = .string escaping) : Turns s (s.readString c escaping) := by
  have goOn (e : Bool) : Turns s (s.become (.string e)) :=
    .single (.goOn s _ (by rw [htop]; rfl) (by rw [htop]; rfl))
  unfold readString
  split
  · exact goOn false
  · split
    · exact goOn true
    · exact .single (.leave s (by rw [htop]; rfl) (by simp [htop]))
    · exact .refl s

/-! ## Directives -/

section Directives

variable (s : State) (h : AllOuter s.stack)

include h

theorem turns_begin (width : Nat) (k : Construct) (hk : k.isInner = false) (hc : k ≠ .comment)
    (hb : k.begun = k) : Turns s (s.begin width k) :=
  (turns_flush_settle s width).trans (.single (.enter _ k hk hc hb (by simpa using h)))

theorem turns_beginDeclaration (width : Nat) (k : Construct) (hk : k.isInner = false)
    (hc : k ≠ .comment) (hb : k.begun = k) : Turns s (s.beginDeclaration width k) := by
  unfold beginDeclaration
  split
  · exact (turns_flush_settle s width).trans (.single (.enter _ k hk hc hb (by simpa using h)))
  · exact (turns_settle s).trans (.single (.enter _ k hk hc hb (by simpa using h)))

omit h in
/-- The text before a directive is handed out and ends. -/
theorem turns_flush_settle_pop (width : Nat) (hs : s.top = .text) :
    Turns s (s.flush width).settle.pop :=
  (turns_flush_settle s width).trans
    (.single (.leave _ (by simp [hs, Construct.held]) (by simp [hs])))

omit h in
theorem top_of_inTextOf {sort : Construct → Bool} (hs : s.inTextOf sort = true) :
    s.top = .text := by
  obtain ⟨t, opener, rest, hstack, ht, -⟩ := inTextOf_eq_true s hs
  rw [top, hstack]
  exact ht

theorem turns_conditionElse (width : Nat) : Turns s (s.conditionElse width) := by
  unfold conditionElse
  split
  · rename_i hs
    refine (turns_flush_settle_pop s width (top_of_inTextOf s hs)).trans ?_
    refine (Turns.single (.say _ .conditionElse rfl)).trans ?_
    exact .single (.enter _ .text rfl (by simp) rfl (by simpa using h.tail))
  · exact .single (.report s _ (by simp))

/-- What a text belongs to ends with it. -/
theorem turns_pop_opener {t : State} (hstack : t.stack = s.stack.tail) : Turns t t.pop := by
  have hpop : AllOuter t.stack := by
    rw [hstack]
    exact h.tail
  have htop : t.top.isOuter = true := by
    unfold State.top
    cases ht : t.stack with
    | nil => rfl
    | cons frame rest => exact hpop frame (by simp [ht])
  refine .single (.leave t (Construct.held_of_isOuter htop) ?_)
  intro hc
  rw [hc] at htop
  exact absurd htop (by decide)

theorem turns_conditionElseIf (width : Nat) : Turns s (s.conditionElseIf width) := by
  unfold conditionElseIf
  split
  · rename_i hs
    refine (turns_flush_settle_pop s width (top_of_inTextOf s hs)).trans ?_
    refine (turns_pop_opener s h (by simp)).trans ?_
    exact .single (.enter _ .conditionElseIf rfl (by simp) rfl (by simpa using h.tail.tail))
  · exact .single (.report s _ (by simp))

theorem turns_endBlock (closing opening : Directive) (sort : Construct → Bool)
    (body : Event.Body) (hb : body.isMark = true) :
    Turns s (s.endBlock closing opening sort body) := by
  unfold endBlock
  split
  · rename_i hs
    refine (turns_flush_settle_pop s closing.width (top_of_inTextOf s hs)).trans ?_
    exact (Turns.single (.say _ body hb)).trans (turns_pop_opener s h (by simp))
  · exact .single (.report s _ (by simp))

omit h in
theorem turns_endLayout : Turns s s.endLayout := by
  unfold endLayout
  split
  · rename_i htop
    rw [pop_settle]
    exact (turns_settle_pop s (by rw [htop]; rfl)).trans (.single (.say _ .layoutEnd rfl))
  · exact .single (.report s _ (by simp))

theorem turns_beginSlot : Turns s s.beginSlot := by
  unfold beginSlot
  split
  · exact (turns_settle s).trans (.single (.enter _ .slot rfl (by simp) rfl h))
  · exact .single (.report s _ (by simp))

theorem turns_beginSlotText (hp : 1 ≤ s.pending.length) : Turns s s.beginSlotText := by
  unfold beginSlotText
  rw [emit_settle]
  refine (Turns.single (.quote s 1 (.slotBegin (s.slice 1).trim) h hp
    ⟨Or.inr rfl, by simp, by simp⟩)).trans ?_
  exact (Turns.single (.enter _ .text rfl (by simp) rfl (by simpa using h))).trans
    (.single (.deepen _ _))

theorem turns_endSlot (width : Nat) : Turns s (s.endSlot width) := by
  unfold endSlot
  split
  · rename_i hs
    refine (turns_flush_settle_pop s width (top_of_inTextOf s hs)).trans ?_
    refine (turns_pop_opener s h (by simp)).trans ?_
    exact (Turns.single (.deepen _ _)).trans (.single (.say _ .slotEnd rfl))
  · exact .single (.report s _ (by simp))

theorem turns_endRender (kind : Kind) (hp : 1 ≤ s.pending.length) (htop : s.top = .render) :
    Turns s (s.endRender kind) := by
  unfold endRender
  simp only
  split
  · rw [← pop_settle]
    exact .single (.leaveQuoting s 1 _ h hp ⟨Or.inr rfl, by simp, by simp⟩)
  · exact (turns_settle_pop s (by rw [htop]; rfl)).trans
      (.single (.report _ _ (by simp)))

theorem turns_obey (d : Directive) : Turns s (s.obey d) := by
  unfold obey
  split
  · exact .single (.comment s _ h)
  · exact turns_beginDeclaration s h _ .imported rfl (by simp) rfl
  · exact turns_beginDeclaration s h _ .param rfl (by simp) rfl
  · exact turns_begin s h _ (.expression _) rfl (by simp) rfl
  · exact turns_begin s h _ .statement rfl (by simp) rfl
  · exact turns_begin s h _ .condition rfl (by simp) rfl
  · exact turns_conditionElse s h _
  · exact turns_conditionElseIf s h _
  · exact turns_endBlock s h _ _ _ .conditionEnd rfl
  · exact turns_begin s h _ .loop rfl (by simp) rfl
  · exact turns_endBlock s h _ _ _ .loopEnd rfl
  · exact turns_begin s h _ (.reference _) rfl (by simp) rfl
  · exact turns_endLayout s
  · exact turns_beginSlot s h
  · exact turns_endSlot s h _
  · exact turns_begin s h _ .render rfl (by simp) rfl

/-- A declaration is quoted, or let go of and reported. -/
theorem turns_endDeclaration (width : Nat) (hw : width ≤ s.pending.length)
    (htop : s.top.isDeclaration = true) : Turns s (s.endDeclaration width) := by
  have houter : s.top.isOuter = true := Construct.isOuter_of_isDeclaration htop
  have hreport (fault : Fault) (hf : ∀ k, fault ≠ .unterminated k) :
      Turns s (s.pop.settle.report fault) := by
    rw [pop_settle]
    exact (turns_settle_pop s houter).trans (.single (.report _ _ hf))
  unfold endDeclaration
  simp only
  split
  · exact hreport _ (by simp)
  · split
    · split
      · rename_i p hp
        refine .single (.leaveQuoting s width _ h hw ⟨Or.inr rfl, by simp, ?_⟩)
        intro declaration param hbody
        obtain ⟨rfl, rfl⟩ := Event.Body.param.inj hbody
        exact hp
      · exact hreport _ (by simp)
    · exact .single (.leaveQuoting s width _ h hw ⟨Or.inr rfl, by simp, by simp⟩)

end Directives

/-! ## Markup -/

theorem turns_endElement (s : State) (e : Markup.Element) (after : List Char) :
    Turns s (s.endElement e after) := by
  unfold endElement
  split
  · have hclosing : Turns s { s with closingTag := true } := .single (.markup s s.elements true)
    simp only
    split
    · exact hclosing
    · refine hclosing.trans ((Turns.single (.handOut _ 2 2 (Nat.le_refl _))).trans ?_)
      exact (Turns.single (.say _ (.elementClosed e) rfl)).trans (.single (.markup _ _ _))
  · exact .refl s

theorem turns_completeOpening (s : State) (e : Markup.Element) (width : Nat)
    (selfClosing : Bool) : Turns s (s.completeOpening e width selfClosing) := by
  have hopened : Turns s ((((s.flush width).keep width).setElement { e with opened := true }).emit
      (.elementOpened { e with opened := true })) :=
    ((Turns.single (.handOut s width width (Nat.le_refl _))).trans
      (.single (.markup _ _ _))).trans (.single (.say _ _ rfl))
  unfold completeOpening
  simp only
  split
  · exact hopened.trans (.single (.markup _ _ _))
  · exact hopened

theorem turns_quote (s : State) (interest : Markup.Interest) (e : Markup.Element) :
    Turns s (s.quote interest e) := by
  unfold quote
  split
  · exact .refl s
  · split
    · simp only
      split
      · exact ((Turns.single (.markup _ _ _)).trans (turns_flush_settle _ 0)).trans
          (.single (.say _ _ rfl))
      · exact .single (.markup _ _ _)
    · exact .single (.markup _ _ _)
    · exact .refl s

theorem turns_followMarkup (s : State) (interest : Markup.Interest) (c : Char)
    (after : List Char) : Turns s (s.followMarkup interest c after) := by
  unfold followMarkup
  split
  · unfold beginElement
    split
    · exact .single (.markup _ _ _)
    · exact .refl s
  · split
    · exact .refl s
    · split
      · exact turns_endElement s _ after
      · split
        · exact .refl s
        · split
          · split
            · exact .refl s
            · unfold beginAttribute
              split
              · exact .refl s
              · exact .single (.markup _ _ _)
          · exact turns_quote s interest _
          · split
            · exact .refl s
            · unfold endTag
              split
              · exact turns_completeOpening s _ 2 true
              · split
                · exact .single (.markup _ _ _)
                · exact turns_completeOpening s _ 1 false
          · exact .refl s

/-! ## One character -/

section Character

variable (s : State) (hp : 1 ≤ s.pending.length)

theorem turns_parenthesisBegins (h : AllOuter s.stack) : Turns s s.parenthesisBegins := by
  have hinside (htop : s.top.isCondition = true) : Turns s (s.settle.push .parentheses) :=
    (turns_settle s).trans (.single (.inside _ .parentheses rfl rfl (by
      rw [settle_top]
      intro hc
      rw [hc] at htop
      exact absurd htop (by decide))))
  unfold parenthesisBegins
  split
  · rename_i htop
    exact hinside (by rw [htop]; rfl)
  · rename_i htop
    exact hinside (by rw [htop]; rfl)
  · exact (turns_settle s).trans (.single (.enter _ .loopHeader rfl (by simp) rfl h))
  · exact turns_settle s
  · exact turns_settle s
  · exact .refl s

include hp in
theorem turns_parenthesisEnds (h : AllOuter s.stack) (kind : Kind) :
    Turns s (s.parenthesisEnds kind) := by
  unfold parenthesisEnds
  split
  · exact turns_beginSlotText s h hp
  · rename_i htop
    exact turns_endRender s h kind hp htop
  · exact .refl s

theorem turns_beginArguments {kind : CallKind} (htop : s.top = .reference kind) :
    Turns s (s.beginArguments kind) := by
  have goOn (t : State) (ht : t.top = .reference kind) (reference : String) :
      Turns t (t.settle.become (.arguments { kind, reference } 0)) :=
    (turns_settle t).trans
      (.single (.goOn _ _ (by rw [settle_top, ht]; rfl) (by rw [settle_top, ht]; rfl)))
  unfold beginArguments
  simp only
  split
  · exact (Turns.single (.report s (.namelessCall kind) (by simp))).trans
      (goOn (s.report _) htop _)
  · exact goOn s htop _

include hp in
theorem turns_readText (h : AllOuter s.stack) (setting : Setting) (c : Char)
    (after : List Char) : Turns s (s.readText setting c after) := by
  unfold readText
  split
  · exact turns_obey s h _
  · split
    · exact turns_parenthesisBegins s h
    · exact turns_parenthesisEnds s hp h setting.kind
    · exact turns_followMarkup s _ _ after
    · exact .refl s

include hp in
/-- **Reading a character is a chain of turns.** -/
theorem readChar_turns (h : Layered s.stack) (setting : Setting) (c : Char)
    (after : List Char) : Turns s (s.readChar setting c after) := by
  unfold readChar
  split
  · rename_i htop
    split
    · exact .single (.commentEnd s htop)
    · exact .refl s
  · rename_i e htop
    exact turns_readString s c htop
  · rename_i htop
    split
    · exact turns_endDeclaration s (h.all_outer (by rw [htop]; rfl)) 1 hp (by rw [htop]; rfl)
    · exact .refl s
  · rename_i htop
    split
    · exact turns_endDeclaration s (h.all_outer (by rw [htop]; rfl)) 1 hp (by rw [htop]; rfl)
    · exact .refl s
  · rename_i kind htop
    split
    · exact turns_beginArguments s htop
    · exact .refl s
  all_goals
    rename_i htop
    first
    | exact turns_readCode s h hp c after (by simp [htop])
    | exact turns_readText s hp (h.all_outer (by rw [htop]; rfl)) setting c after

end Character

/-- A declaration may end with the input. -/
theorem turns_declared (s : State) (h : Layered s.stack) :
    Turns s (if s.top = .imported ∨ s.top = .param then s.endDeclaration 0 else s) := by
  split
  · rename_i htop
    have hd : s.top.isDeclaration = true := Construct.isDeclaration_of htop
    have ho : s.top.isOuter = true := Construct.isOuter_of_isDeclaration hd
    exact turns_endDeclaration s (h.all_outer ho) 0 (Nat.zero_le _) hd
  · exact .refl s

/-- At the end of the input a declaration may end, and the rest of the text is
handed out. -/
theorem settled_turns (s : State) (h : Layered s.stack) : Turns s s.settled :=
  (turns_declared s h).trans (turns_flush_settle _ 0)

end State

/-! ## What turns leave alone -/

/-- What has been read is not changed by turns. -/
theorem Turn.reading {s t : State} (h : Turn s t) :
    t.before = s.before ∧ t.position = s.position ∧ t.line = s.line := by
  cases h with
  | keep n => exact ⟨rfl, rfl, rfl⟩
  | handOut n m _ => exact ⟨s.flush_before n, s.flush_position n, by simp⟩
  | markup elements closingTag => exact ⟨rfl, rfl, rfl⟩
  | report fault _ => exact ⟨rfl, rfl, rfl⟩
  | deepen depth => exact ⟨rfl, rfl, rfl⟩
  | say body _ => simp
  | quote n body _ _ _ =>
      refine ⟨?_, ?_, by simp⟩
      · rw [State.emit_before]
        rfl
      · rw [State.emit_position]
        rfl
  | leaveQuoting n body _ _ _ =>
      refine ⟨?_, ?_, by simp⟩
      · rw [State.emit_before]
        exact s.pop_before
      · rw [State.emit_position]
        exact s.pop_position
  | split call _ _ => exact ⟨s.become_before _, s.become_position _, by simp⟩
  | call call angles _ _ =>
      refine ⟨?_, ?_, by simp⟩
      · rw [State.emit_before]
        exact s.pop_before
      · rw [State.emit_position]
        exact s.pop_position
  | comment n _ => exact ⟨s.flush_before n, s.flush_position n, by simp⟩
  | commentEnd _ => exact ⟨s.pop_before, s.pop_position, by simp⟩
  | inside k _ _ _ => exact ⟨rfl, rfl, rfl⟩
  | enter k _ _ _ _ => exact ⟨rfl, rfl, rfl⟩
  | leave _ _ => exact ⟨s.pop_before, s.pop_position, by simp⟩
  | goOn k _ _ => exact ⟨s.become_before k, s.become_position k, by simp⟩

theorem Turns.reading {s t : State} (h : Turns s t) :
    t.before = s.before ∧ t.position = s.position ∧ t.line = s.line := by
  induction h with
  | refl => exact ⟨rfl, rfl, rfl⟩
  | tail _ hst ih =>
      obtain ⟨hbefore, hposition, hline⟩ := hst.reading
      exact ⟨hbefore.trans ih.1, hposition.trans ih.2.1, hline.trans ih.2.2⟩

/-! ## Invariants of turns -/

/-- The property `P` of the states of a scan, which are layered, is kept by all
turns and by what happens between them. -/
structure Upheld (P : State → Prop) : Prop where
  layered : ∀ s : State, P s → Layered s.stack
  advance : ∀ (s : State) (c : Char), P s → P (s.advance c)
  turn : ∀ {s t : State}, Turn s t → P s → P t
  newline : ∀ s : State, P s → P { s.emit .lineEnd with line := s.line + 1 }

namespace Upheld

variable {P : State → Prop} (hP : Upheld P) {s : State}

include hP

theorem turns {t : State} (h : Turns s t) (hs : P s) : P t :=
  h.preserves hP.turn hs

theorem step (setting : Setting) (c : Char) (after : List Char) (hs : P s) :
    P (s.step setting c after) := by
  have hadvance : P (s.advance c) := hP.advance s c hs
  have hread : P ((s.advance c).readChar setting c after) :=
    hP.turns (State.readChar_turns _ (by simp [State.advance]) (hP.layered _ hadvance)
      setting c after) hadvance
  unfold State.step State.endLine
  split
  · exact hP.newline _ hread
  · exact hread

theorem through (setting : Setting) (hs : P s) (read after : List Char) :
    P (s.through setting read after) :=
  State.through_preserves (fun _ c rest h => hP.step setting c rest h) hs read after

theorem run (setting : Setting) (hs : P s) (source : List Char) :
    P (State.run setting s source) := by
  rw [State.run_eq_through]
  exact hP.through setting hs source []

theorem settled (hs : P s) : P s.settled :=
  hP.turns (s.settled_turns (hP.layered s hs)) hs

end Upheld

/-! ## Layers of a scan -/

/-- Every turn keeps the layers. -/
theorem Turn.layered {s t : State} (h : Turn s t) (hs : Layered s.stack) :
    Layered t.stack := by
  cases h with
  | keep n => exact hs
  | handOut n m _ => simpa using hs
  | markup elements closingTag => exact hs
  | report fault _ => exact hs
  | deepen depth => exact hs
  | say body _ => simpa using hs
  | quote n body _ _ _ => simpa using hs
  | leaveQuoting n body _ _ _ => simpa using hs.tail
  | split call htop _ =>
      have houter := hs.tail_outer (by rw [htop]; rfl)
      rw [State.settle_stack]
      unfold State.become
      cases hstack : s.stack with
      | nil => simp [State.top, hstack] at htop
      | cons frame rest => simpa [Layered, Construct.isInner, hstack] using houter
  | call call angles _ _ => simpa using hs.tail
  | comment n ho => simpa [Layered, Construct.isInner] using ho
  | commentEnd _ => simpa using hs.tail
  | inside k hk _ htop =>
      rw [State.push_stack, Layered, if_pos hk]
      refine ⟨hs, ?_⟩
      unfold State.top at htop
      cases hstack : s.stack with
      | nil => simp
      | cons frame rest =>
          rw [hstack] at htop
          simpa using htop
  | enter k hk _ _ ho =>
      rw [State.push_stack, Layered, if_neg (by simp [hk])]
      exact ho
  | leave _ _ => simpa using hs.tail
  | goOn k hbegun _ =>
      unfold State.become
      cases hstack : s.stack with
      | nil => simp [hstack, Layered]
      | cons frame rest =>
          rw [hstack] at hs
          have htop : s.top = frame.construct := by simp [State.top, hstack]
          rw [htop] at hbegun
          rw [Layered] at hs ⊢
          rw [Construct.isInner_of_begun hbegun]
          exact hs

theorem layered_upheld : Upheld (fun s => Layered s.stack) where
  layered _ h := h
  advance _ _ h := h
  turn := Turn.layered
  newline _ h := by simpa using h

theorem layered_start : Layered ({} : State).stack :=
  trivial

namespace State

variable {s : State}

theorem step_before (h : Layered s.stack) (setting : Setting) (c : Char) (after : List Char) :
    (s.step setting c after).before = c :: s.before := by
  have hread := (readChar_turns (s.advance c) (by simp [advance]) h setting c after).reading.1
  unfold step endLine
  split
  · show ((_ : State).emit .lineEnd).before = _
    rw [emit_before]
    exact hread
  · exact hread

/-- What a scan has read is what it has taken. -/
theorem through_before (h : Layered s.stack) (setting : Setting) (read after : List Char) :
    (s.through setting read after).before = read.reverse ++ s.before := by
  induction read generalizing s with
  | nil => rfl
  | cons c cs ih =>
      rw [through, ih (layered_upheld.step setting c _ h), step_before h, List.reverse_cons,
        List.append_assoc]
      rfl

theorem run_before (setting : Setting) (source : List Char) :
    (run setting {} source).before = source.reverse := by
  rw [run_eq_through, through_before layered_start]
  simp

theorem finish_before (h : Layered s.stack) : s.finish.before = s.before := by
  have hsettled := (s.settled_turns h).reading.1
  rw [finish_eq]
  split <;> rw [emit_before] <;> exact hsettled

end State

end Scan

end Templating
