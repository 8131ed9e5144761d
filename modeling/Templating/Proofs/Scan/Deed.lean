import Templating.Proofs.Scan.Move

/-!
# What one character can do

Reading a character is a chain of deeds, unless a directive is read that begins
another branch or a construct that something is said of later on. `readChar_deeds`
says this once for every directive, bracket and quote. Deeds say more than moves of
where the scanner stands: what belongs to a text is said in that text, and code and
comments are aside. Every deed is a chain of moves, and so is reading a character:
`readChar_moves`.
-/

namespace Templating

/-- The construct that the directive begins in a text, if something is said of it
later on. -/
def Directive.construct? : Directive → Option Scan.Construct
  | .imported => some .imported
  | .param => some .param
  | .conditionBegin => some .condition
  | .loopBegin => some .loop
  | .call kind => some (.reference kind)
  | .render => some .render
  | _ => none

/-- The directive goes on with another branch of a condition. -/
def Directive.isBranch : Directive → Bool
  | .conditionElse | .conditionElseIf => true
  | _ => false

theorem Directive.not_isBranch_of_construct? {d : Directive} {k : Scan.Construct}
    (h : d.construct? = some k) : d.isBranch = false := by
  cases d <;> first | rfl | cases h

namespace Scan

/-- Comments, and code with its brackets and strings. -/
def Construct.isAside : Construct → Bool
  | comment | expression _ | statement | block | parentheses | loopHeader | string _ => true
  | _ => false

theorem Construct.isPassive_of_isAside {k : Construct} (h : k.isAside = true) :
    k.isPassive = true := by
  cases k <;> first | rfl | exact absurd h (by simp [isAside])

/-- What a directive begins in a text is passive. -/
theorem Construct.isPassive_of_construct? {d : Directive} {k : Construct}
    (h : d.construct? = some k) : k.isPassive = true := by
  cases d <;> cases h <;> rfl

theorem Construct.not_isDeclaration_of_isAside {k : Construct} (h : k.isAside = true) :
    k.isDeclaration = false := by
  cases k <;> first | rfl | exact absurd h (by simp [isAside])

open State in
/-- One deed of the scanner. -/
inductive Deed : State → State → Prop where
  | keep (s : State) (n : Nat) : Deed s (s.keep n)
  | markup (s : State) (elements : List Markup.Element) (closingTag : Bool) :
      Deed s { s with elements, closingTag }
  | report (s : State) (fault : Fault) : Deed s (s.report fault)
  | inline (s : State) (body : Event.Body) : body.isInline = true → s.top = .text →
      Deed s (s.emit body)
  | aside (s : State) (k : Construct) : k.isAside = true → s.top.isDeclaration = false →
      Deed s (s.push k)
  | leave (s : State) : s.top.isAside = true → Deed s s.pop
  | become (s : State) (k : Construct) : s.top.isPassive = true → k.isPassive = true →
      k.isDeclaration = false → k.isAside = s.top.isAside → Deed s (s.become k)
  | call (s : State) (call : PendingCall) (angles : Nat) (reference : String)
      (arguments : List Text.Slice) : s.top = .arguments call angles →
      Deed s (s.pop.emit (.call .tag reference arguments))
  | render (s : State) (slot : Text.Slice) : s.top = .render → Deed s (s.pop.emit (.render slot))
  | refuse (s : State) (fault : Fault) : s.top = .render → Deed s (s.pop.report fault)
  | header (s : State) (body : Event.Body) : Heads s.top body →
      Deed s ((s.emit body).push .text)
  | endBlock (s : State) (sort : Construct → Bool) (body : Event.Body) : Ends sort body →
      s.inTextOf sort = true → Deed s ((s.pop.emit body).pop)
  | layoutBegin (s : State) (call : PendingCall) (angles : Nat) (reference : String)
      (arguments : List Text.Slice) : s.top = .arguments call angles →
      Deed s ((s.pop.emit (.call .layout reference arguments)).push .layoutBody)
  | layoutEnd (s : State) : s.top = .layoutBody → Deed s (s.pop.emit .layoutEnd)
  | slotEnter (s : State) : s.top = .layoutBody → Deed s (s.push .slot)
  | slotBegin (s : State) (name : Text.Slice) : s.top = .slot →
      Deed s { (s.emit (.slotBegin name)).push .text with
        depth := ((s.emit (.slotBegin name)).push .text).depth + 2 }
  | slotEnd (s : State) : s.inTextOf (· == .slot) = true →
      Deed s ({ s.pop.pop with depth := s.pop.pop.depth - 2 }.emit .slotEnd)

/-- A chain of deeds. -/
def Deeds : State → State → Prop :=
  Relation.ReflTransGen Deed

namespace Deeds

theorem refl (s : State) : Deeds s s :=
  Relation.ReflTransGen.refl

theorem trans {s t u : State} (h : Deeds s t) (h' : Deeds t u) : Deeds s u :=
  Relation.ReflTransGen.trans h h'

theorem single {s t : State} (h : Deed s t) : Deeds s t :=
  Relation.ReflTransGen.single h

/-- What every deed preserves, a chain of deeds preserves. -/
theorem preserves {P : State → Prop} (hdeed : ∀ {s t : State}, Deed s t → P s → P t)
    {s t : State} (h : Deeds s t) (hs : P s) : P t := by
  induction h with
  | refl => exact hs
  | tail _ hst ih => exact hdeed hst ih

end Deeds

/-- What a directive does that begins another branch or a construct that something is
said of later on, once the text before it is handed out. -/
inductive Starts : State → Directive → State → Prop where
  | enter (s : State) (d : Directive) (k : Construct) : d.construct? = some k →
      Starts s d (s.push k)
  | otherwise (s : State) : s.inTextOf Construct.isCondition = true →
      Starts s .conditionElse ((s.pop.emit .conditionElse).push .text)
  | elseIf (s : State) : s.inTextOf Construct.isCondition = true →
      Starts s .conditionElseIf (s.pop.pop.push .conditionElseIf)

namespace State

/-- The directive that ends with the character just taken, if directives are looked
for where the scanner stands. -/
def directive? (s : State) (after : List Char) : Option Directive :=
  if s.top.readsText = true then Directive.endingAt? s.before after else none

/-! ## Text that is handed out or dropped -/

theorem deeds_settle (s : State) : Deeds s s.settle :=
  .single (.keep s 0)

theorem deeds_flush (s : State) (n : Nat) : Deeds s (s.flush n) := by
  unfold flush
  split
  · rename_i h
    exact .single (.inline s _ rfl h.1)
  · exact .refl s

theorem deeds_flush_settle (s : State) (n : Nat) : Deeds s (s.flush n).settle :=
  (deeds_flush s n).trans (deeds_settle _)

theorem deeds_flush_keep (s : State) (n m : Nat) : Deeds s ((s.flush n).keep m) :=
  (deeds_flush s n).trans (.single (.keep _ m))

/-! ## Code -/

theorem deeds_closeBrace (s : State) : Deeds s s.closeBrace := by
  have done (body : Text.Slice → Event.Body) (hbody : ∀ code, (body code).isInline = true)
      (htop : s.top.isAside = true) :
      Deeds s (if s.pop.settle.top = .text then s.pop.settle.emit (body (s.slice 1))
        else s.pop.settle) := by
    have hpop : Deeds s s.pop.settle :=
      (Deeds.single (.leave s htop)).trans (deeds_settle _)
    split
    · rename_i htext
      exact hpop.trans (.single (.inline _ _ (hbody _) htext))
    · exact hpop
  unfold closeBrace
  split
  · rename_i h
    exact .single (.leave s (by rw [h]; rfl))
  · rename_i e h
    exact done (.expression e) (fun _ => rfl) (by rw [h]; rfl)
  · rename_i h
    exact done .statement (fun _ => rfl) (by rw [h]; rfl)
  · exact .refl s

theorem deeds_closeHeader (s : State) (body : Text.Slice → Event.Body)
    (h : ∀ code, Heads s.top (body code)) : Deeds s (s.closeHeader body) :=
  (deeds_settle s).trans (.single (.header _ _ (h _)))

theorem deeds_closeCall (s : State) (call : PendingCall) {pending : PendingCall} {angles : Nat}
    (h : s.top = .arguments pending angles) : Deeds s (s.closeCall call) := by
  obtain ⟨kind, reference, arguments⟩ := call
  cases kind with
  | tag =>
      unfold closeCall
      rw [pop_settle]
      exact (deeds_settle s).trans (.single (.call _ _ _ _ _ h))
  | layout =>
      unfold closeCall
      rw [pop_settle]
      exact (deeds_settle s).trans (.single (.layoutBegin _ _ _ _ _ h))

theorem deeds_closeParenthesis (s : State) : Deeds s s.closeParenthesis := by
  unfold closeParenthesis
  split
  · rename_i h
    have hpop : Deeds s s.pop := .single (.leave s (by rw [h]; rfl))
    simp only
    split
    · rename_i h'
      exact hpop.trans (deeds_closeHeader _ _ fun code => h' ▸ .condition code)
    · rename_i h'
      exact hpop.trans (deeds_closeHeader _ _ fun code => h' ▸ .conditionElseIf code)
    · exact hpop
  · rename_i h
    have hpop : Deeds s s.pop := .single (.leave s (by rw [h]; rfl))
    simp only
    split
    · rename_i h'
      exact hpop.trans (deeds_closeHeader _ _ fun code => h' ▸ .loop code)
    · exact hpop
  · rename_i h
    exact deeds_closeCall s _ h
  · exact .refl s

theorem deeds_openParenthesis (s : State) : Deeds s s.openParenthesis := by
  unfold openParenthesis
  split
  · rename_i h
    exact .single (.aside s _ rfl (by rw [h]; rfl))
  · rename_i h
    exact .single (.aside s _ rfl (by rw [h]; rfl))
  · rename_i h
    exact .single (.aside s _ rfl (by rw [h]; rfl))
  · exact .refl s

theorem deeds_splitArgument (s : State) : Deeds s s.splitArgument := by
  unfold splitArgument
  split
  · rename_i h
    exact (Deeds.single (.become s _ (by rw [h]; rfl) rfl rfl (by rw [h]; rfl))).trans
      (deeds_settle _)
  · exact .refl s

theorem deeds_openAngle (s : State) (after : List Char) : Deeds s (s.openAngle after) := by
  unfold openAngle
  split
  · rename_i h
    split
    · exact .single (.become s _ (by rw [h]; rfl) rfl rfl (by rw [h]; rfl))
    · exact .refl s
  · exact .refl s

theorem deeds_closeAngle (s : State) : Deeds s s.closeAngle := by
  unfold closeAngle
  split
  · rename_i h
    split
    · exact .refl s
    · exact .single (.become s _ (by rw [h]; rfl) rfl rfl (by rw [h]; rfl))
  · exact .refl s

theorem deeds_readCode (s : State) (c : Char) (after : List Char)
    (h : s.top.isDeclaration = false) : Deeds s (s.readCode c after) := by
  unfold readCode
  split
  · exact .single (.aside s _ rfl h)
  · exact .single (.aside s _ rfl h)
  · exact deeds_closeBrace s
  · exact deeds_openParenthesis s
  · exact deeds_closeParenthesis s
  · exact deeds_splitArgument s
  · exact deeds_openAngle s after
  · exact deeds_closeAngle s
  · exact .refl s

theorem deeds_readString (s : State) (c : Char) (escaping : Bool)
    (h : s.top.isAside = true) : Deeds s (s.readString c escaping) := by
  have become (e : Bool) : Deeds s (s.become (.string e)) :=
    .single (.become s _ (Construct.isPassive_of_isAside h) rfl rfl (by rw [h]; rfl))
  unfold readString
  split
  · exact become false
  · split
    · exact become true
    · exact .single (.leave s h)
    · exact .refl s

/-! ## Directives -/

/-- Code and comments begin aside. -/
theorem deeds_begin (s : State) (width : Nat) (k : Construct) (h : s.top.isDeclaration = false)
    (hk : k.isAside = true) : Deeds s (s.begin width k) :=
  (deeds_flush_settle s width).trans (.single (.aside _ k hk (by simpa using h)))

theorem deeds_endBlock (s : State) (closing opening : Directive) (sort : Construct → Bool)
    (body : Event.Body) (hb : Ends sort body) :
    Deeds s (s.endBlock closing opening sort body) := by
  unfold endBlock
  split
  · rename_i h
    exact (deeds_flush_settle s _).trans
      (.single (.endBlock _ sort body hb (by simpa [inTextOf] using h)))
  · exact .single (.report s _)

theorem deeds_endLayout (s : State) : Deeds s s.endLayout := by
  unfold endLayout
  split
  · rename_i h
    rw [pop_settle]
    exact (deeds_settle s).trans (.single (.layoutEnd _ h))
  · exact .single (.report s _)

theorem deeds_beginSlot (s : State) : Deeds s s.beginSlot := by
  unfold beginSlot
  split
  · rename_i h
    exact (deeds_settle s).trans (.single (.slotEnter _ h))
  · exact .single (.report s _)

theorem deeds_beginSlotText (s : State) (h : s.top = .slot) : Deeds s s.beginSlotText := by
  unfold beginSlotText
  rw [emit_settle]
  exact (deeds_settle s).trans (.single (.slotBegin _ _ h))

theorem deeds_endSlot (s : State) (width : Nat) : Deeds s (s.endSlot width) := by
  unfold endSlot
  split
  · rename_i h
    exact (deeds_flush_settle s width).trans (.single (.slotEnd _ (by simpa [inTextOf] using h)))
  · exact .single (.report s _)

theorem deeds_endRender (s : State) (kind : Kind) (h : s.top = .render) :
    Deeds s (s.endRender kind) := by
  unfold endRender
  simp only
  split
  · exact (deeds_settle s).trans (.single (.render _ _ h))
  · exact (deeds_settle s).trans (.single (.refuse _ _ h))

/-- The text before a directive is handed out, or it is blank and dropped. -/
def Handed (s : State) (d : Directive) (u : State) : Prop :=
  u = s.settle ∨ u = (s.flush d.width).settle

/-- The directive begins nothing that has its place in a text, and if it goes on with
another branch, it does not stand in the text of a condition. -/
def Strays (s : State) (d : Directive) : Prop :=
  d.construct? = none ∧ (d.isBranch = true → s.inTextOf Construct.isCondition = false)

/-- A directive is obeyed in deeds, or it begins something once the text before it
is handed out. -/
theorem obey_deeds (s : State) (d : Directive) (h : s.top.isDeclaration = false) :
    Deeds s (s.obey d) ∧ s.Strays d ∨ ∃ u, s.Handed d u ∧ Starts u d (s.obey d) := by
  have entered (k : Construct) (hk : d.construct? = some k) :
      ∃ u, s.Handed d u ∧ Starts u d (s.begin d.width k) :=
    ⟨_, Or.inr rfl, .enter _ d k hk⟩
  have declared (k : Construct) (hk : d.construct? = some k) :
      ∃ u, s.Handed d u ∧ Starts u d (s.beginDeclaration d.width k) := by
    unfold beginDeclaration
    split
    · exact ⟨_, Or.inr rfl, .enter _ d k hk⟩
    · exact ⟨_, Or.inl rfl, .enter _ d k hk⟩
  have inText (hs : s.inTextOf Construct.isCondition = true) :
      (s.flush d.width).settle.inTextOf Construct.isCondition = true := by
    simpa [inTextOf] using hs
  have noBranch (hd : d.isBranch = false) (hk : d.construct? = none) : s.Strays d := by
    refine ⟨hk, fun hbranch => ?_⟩
    rw [hd] at hbranch
    cases hbranch
  cases d with
  | comment =>
      exact Or.inl ⟨(deeds_flush s _).trans (.single (.aside _ _ rfl (by simpa using h))),
        noBranch rfl rfl⟩
  | imported => exact Or.inr (declared _ rfl)
  | param => exact Or.inr (declared _ rfl)
  | expression escaping => exact Or.inl ⟨deeds_begin s _ _ h rfl, noBranch rfl rfl⟩
  | statement => exact Or.inl ⟨deeds_begin s _ _ h rfl, noBranch rfl rfl⟩
  | conditionBegin => exact Or.inr (entered _ rfl)
  | conditionElse =>
      show Deeds s (s.conditionElse _) ∧ _ ∨ ∃ u, _ ∧ Starts u _ (s.conditionElse _)
      unfold conditionElse
      split
      · rename_i hs
        exact Or.inr ⟨_, Or.inr rfl, .otherwise _ (inText hs)⟩
      · rename_i hs
        exact Or.inl ⟨.single (.report s _), rfl, fun _ => by simpa using hs⟩
  | conditionElseIf =>
      show Deeds s (s.conditionElseIf _) ∧ _ ∨ ∃ u, _ ∧ Starts u _ (s.conditionElseIf _)
      unfold conditionElseIf
      split
      · rename_i hs
        exact Or.inr ⟨_, Or.inr rfl, .elseIf _ (inText hs)⟩
      · rename_i hs
        exact Or.inl ⟨.single (.report s _), rfl, fun _ => by simpa using hs⟩
  | conditionEnd => exact Or.inl ⟨deeds_endBlock s _ _ _ _ .condition, noBranch rfl rfl⟩
  | loopBegin => exact Or.inr (entered _ rfl)
  | loopEnd => exact Or.inl ⟨deeds_endBlock s _ _ _ _ .loop, noBranch rfl rfl⟩
  | call kind => exact Or.inr (entered _ rfl)
  | layoutEnd => exact Or.inl ⟨deeds_endLayout s, noBranch rfl rfl⟩
  | slotBegin => exact Or.inl ⟨deeds_beginSlot s, noBranch rfl rfl⟩
  | slotEnd => exact Or.inl ⟨deeds_endSlot s _, noBranch rfl rfl⟩
  | render => exact Or.inr (entered _ rfl)

/-! ## Markup -/

section Markup

variable (s : State) (h : s.top = .text)

include h

theorem deeds_endElement (e : Markup.Element) (after : List Char) :
    Deeds s (s.endElement e after) := by
  unfold endElement
  split
  · have hclosing : Deeds s { s with closingTag := true } := .single (.markup s s.elements true)
    simp only
    split
    · exact hclosing
    · refine hclosing.trans ((deeds_flush_keep _ 2 2).trans ?_)
      exact (Deeds.single
        (.inline _ (.elementClosed e) rfl ((top_of_stack (by simp)).trans h))).trans
        (.single (.markup _ _ _))
  · exact .refl s

theorem deeds_completeOpening (e : Markup.Element) (width : Nat) (selfClosing : Bool) :
    Deeds s (s.completeOpening e width selfClosing) := by
  have hopened : Deeds s ((((s.flush width).keep width).setElement { e with opened := true }).emit
      (.elementOpened { e with opened := true })) :=
    ((deeds_flush_keep s width width).trans (.single (.markup _ _ _))).trans
      (.single (.inline _ _ rfl ((top_of_stack (by simp)).trans h)))
  unfold completeOpening
  simp only
  split
  · exact hopened.trans (.single (.markup _ _ _))
  · exact hopened

omit h in
theorem deeds_beginAttribute (e : Markup.Element) : Deeds s (s.beginAttribute e) := by
  unfold beginAttribute
  split
  · exact .refl s
  · exact .single (.markup _ _ _)

theorem deeds_quote (interest : Markup.Interest) (e : Markup.Element) :
    Deeds s (s.quote interest e) := by
  unfold quote
  split
  · exact .refl s
  · split
    · simp only
      split
      · exact ((Deeds.single (.markup _ _ _)).trans (deeds_flush_settle _ 0)).trans
          (.single (.inline _ _ rfl ((top_of_stack (by simp)).trans h)))
      · exact .single (.markup _ _ _)
    · exact .single (.markup _ _ _)
    · exact .refl s

theorem deeds_endTag (e : Markup.Element) : Deeds s (s.endTag e) := by
  unfold endTag
  split
  · exact deeds_completeOpening s h e 2 true
  · split
    · exact .single (.markup _ _ _)
    · exact deeds_completeOpening s h e 1 false

theorem deeds_followMarkup (interest : Markup.Interest) (c : Char) (after : List Char) :
    Deeds s (s.followMarkup interest c after) := by
  unfold followMarkup
  split
  · unfold beginElement
    split
    · exact .single (.markup _ _ _)
    · exact .refl s
  · split
    · exact .refl s
    · split
      · exact deeds_endElement s h _ after
      · split
        · exact .refl s
        · split
          · split
            · exact .refl s
            · exact deeds_beginAttribute s _
          · exact deeds_quote s h interest _
          · split
            · exact .refl s
            · exact deeds_endTag s h _
          · exact .refl s

end Markup

/-! ## One character -/

theorem deeds_parenthesisBegins (s : State) : Deeds s s.parenthesisBegins := by
  have enter (k : Construct) (hk : k.isAside = true) (h : s.top.isDeclaration = false) :
      Deeds s (s.settle.push k) :=
    (deeds_settle s).trans (.single (.aside _ k hk h))
  unfold parenthesisBegins
  split
  · rename_i h
    exact enter .parentheses rfl (by rw [h]; rfl)
  · rename_i h
    exact enter .parentheses rfl (by rw [h]; rfl)
  · rename_i h
    exact enter .loopHeader rfl (by rw [h]; rfl)
  · exact deeds_settle s
  · exact deeds_settle s
  · exact .refl s

theorem deeds_parenthesisEnds (s : State) (kind : Kind) : Deeds s (s.parenthesisEnds kind) := by
  unfold parenthesisEnds
  split
  · rename_i h
    exact deeds_beginSlotText s h
  · rename_i h
    exact deeds_endRender s kind h
  · exact .refl s

theorem deeds_beginArguments (s : State) (kind : CallKind) (h : s.top = .reference kind) :
    Deeds s (s.beginArguments kind) := by
  have become (t : State) (ht : t.top = .reference kind) (call : PendingCall) :
      Deeds t (t.become (.arguments call 0)) :=
    .single (.become t _ (by rw [ht]; rfl) rfl rfl (by rw [ht]; rfl))
  unfold beginArguments
  simp only
  split
  · exact ((Deeds.single (.report s _)).trans (deeds_settle _)).trans
      (become _ ((top_of_stack (by simp)).trans h) _)
  · exact (deeds_settle s).trans (become _ ((top_of_stack (by simp)).trans h) _)

/-! ## Reading a character -/

theorem readText_deeds (s : State) (setting : Setting) (c : Char) (after : List Char)
    (h : s.top.isDeclaration = false) :
    Deeds s (s.readText setting c after) ∧
        (∀ d, Directive.endingAt? s.before after = some d → s.Strays d) ∨
      ∃ d u, Directive.endingAt? s.before after = some d ∧ s.Handed d u ∧
        Starts u d (s.readText setting c after) := by
  unfold readText
  cases hd : Directive.endingAt? s.before after with
  | some d =>
      rcases obey_deeds s d h with ⟨hdeeds, hstrays⟩ | ⟨u, hu, hstarts⟩
      · left
        refine ⟨hdeeds, ?_⟩
        intro d' hd'
        rwa [← Option.some.inj hd']
      · exact Or.inr ⟨d, u, rfl, hu, hstarts⟩
  | none =>
      left
      refine ⟨?_, by simp⟩
      simp only
      split
      · exact deeds_parenthesisBegins s
      · exact deeds_parenthesisEnds s setting.kind
      · rename_i htop _
        exact deeds_followMarkup s htop _ _ after
      · exact .refl s

/-- **Reading a character is a chain of deeds, or a directive begins something**,
unless a declaration is being read. -/
theorem readChar_deeds (s : State) (setting : Setting) (c : Char) (after : List Char)
    (h : s.top.isDeclaration = false) :
    Deeds s (s.readChar setting c after) ∧ (∀ d, s.directive? after = some d → s.Strays d) ∨
      ∃ d u, s.directive? after = some d ∧ s.Handed d u ∧
        Starts u d (s.readChar setting c after) := by
  unfold directive?
  by_cases hreads : s.top.readsText = true
  · rw [readChar_readsText s setting c after hreads, if_pos hreads]
    exact readText_deeds s setting c after h
  · left
    rw [if_neg hreads]
    refine ⟨?_, by simp⟩
    unfold readChar
    split
    · rename_i ht
      split
      · exact (Deeds.single (.leave s (by rw [ht]; rfl))).trans (deeds_settle _)
      · exact .refl s
    · rename_i e ht
      exact deeds_readString s c e (by rw [ht]; rfl)
    · rename_i ht
      rw [ht] at h
      exact absurd h (by decide)
    · rename_i ht
      rw [ht] at h
      exact absurd h (by decide)
    · rename_i kind ht
      split
      · exact deeds_beginArguments s kind ht
      · exact .refl s
    all_goals
      rename_i ht
      first
      | exact deeds_readCode s c after h
      | exact absurd (by rw [ht]; rfl) hreads

/-- In a declaration only the newline that ends it counts. -/
theorem readChar_declaration (s : State) (setting : Setting) (c : Char) (after : List Char)
    (h : s.top.isDeclaration = true) :
    s.readChar setting c after = if c = '\n' then s.endDeclaration 1 else s := by
  unfold readChar
  cases ht : s.top <;> simp [ht, Construct.isDeclaration] at h ⊢

end State

/-! ## Moves -/

theorem isNeutral_of_isInline {body : Event.Body} (h : body.isInline = true) :
    body.isNeutral = true := by
  cases body <;> first | rfl | exact absurd h (by simp [Event.Body.isInline])

/-- A deed is a chain of moves. -/
theorem Deed.moves {s t : State} (h : Deed s t) : Moves s t := by
  cases h with
  | keep n => exact .single (.keep s n)
  | markup elements closingTag => exact .single (.markup s elements closingTag)
  | report fault => exact .single (.report s fault)
  | inline body hbody htop =>
      exact .single (.say s body (isNeutral_of_isInline hbody) fun _ => htop)
  | aside k hk hs =>
      refine .single (.enter s k (Construct.isPassive_of_isAside hk) hs ?_)
      intro hdeclaration
      rw [Construct.not_isDeclaration_of_isAside hk] at hdeclaration
      cases hdeclaration
  | leave hs => exact .single (.leave s (Construct.isPassive_of_isAside hs))
  | become k hs hk hdeclaration _ => exact .single (.become s k hs hk hdeclaration)
  | call call angles reference arguments hs =>
      exact (Moves.single (.leave s (by rw [hs]; rfl))).trans (.single (.say _ _ rfl nofun))
  | render slot hs =>
      exact (Moves.single (.leave s (by rw [hs]; rfl))).trans (.single (.say _ _ rfl nofun))
  | refuse fault hs =>
      exact (Moves.single (.leave s (by rw [hs]; rfl))).trans (.single (.report _ fault))
  | header body hs => exact .single (.header s body hs)
  | endBlock sort body hb hs => exact .single (.endBlock s sort body hb hs)
  | layoutBegin call angles reference arguments hs =>
      exact .single (.layoutBegin s call angles reference arguments hs)
  | layoutEnd hs => exact .single (.layoutEnd s hs)
  | slotEnter hs => exact .single (.slotEnter s hs)
  | slotBegin name hs => exact .single (.slotBegin s name hs)
  | slotEnd hs => exact .single (.slotEnd s hs)

theorem Deeds.moves {s t : State} (h : Deeds s t) : Moves s t := by
  induction h with
  | refl => exact .refl s
  | tail _ hst ih => exact ih.trans hst.moves

/-- What a directive begins, it begins in one move. -/
theorem Starts.move {d : Directive} {s t : State} (h : Starts s d t)
    (hs : s.top.isDeclaration = false) (hpending : s.pending = []) : Move s t := by
  cases h with
  | enter _ k hk =>
      exact .enter s k (Construct.isPassive_of_construct? hk) hs fun _ => hpending
  | otherwise hin => exact .otherwise s hin
  | elseIf hin => exact .elseIf s hin

namespace State

theorem moves_flush_settle (s : State) (n : Nat) : Moves s (s.flush n).settle :=
  (deeds_flush_settle s n).moves

theorem Handed.deeds {s u : State} {d : Directive} (h : s.Handed d u) : Deeds s u := by
  rcases h with rfl | rfl
  · exact deeds_settle s
  · exact deeds_flush_settle s _

theorem Handed.stack {s u : State} {d : Directive} (h : s.Handed d u) : u.stack = s.stack := by
  rcases h with rfl | rfl
  · rfl
  · simp

theorem Handed.pending {s u : State} {d : Directive} (h : s.Handed d u) : u.pending = [] := by
  rcases h with rfl | rfl
  · exact settle_pending s
  · exact settle_pending _

/-- **Reading a character is a chain of moves**, unless a declaration is being
read. -/
theorem readChar_moves (s : State) (setting : Setting) (c : Char) (after : List Char)
    (h : s.top.isDeclaration = false) : Moves s (s.readChar setting c after) := by
  rcases readChar_deeds s setting c after h with ⟨hdeeds, -⟩ | ⟨d, u, -, hu, hstarts⟩
  · exact hdeeds.moves
  · refine hu.deeds.moves.trans (.single (hstarts.move ?_ hu.pending))
    rw [top_of_stack hu.stack]
    exact h

end State

end Scan

end Templating
