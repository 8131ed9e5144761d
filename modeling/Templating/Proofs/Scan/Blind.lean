import Templating.Proofs.Scan.Invariant

/-!
# What the scanner is blind to

Only the markup makes the scanner look at the elements that are open, and it never
looks at what it has said. Every other operation does the same whatever they are:
it commutes with `amid`, which puts other elements in their place and lets other
signals come before.
-/

namespace Templating.Scan.State

/-- The same state behind other signals and with other elements open. -/
def amid (s : State) (earlier : List Signal) (elements : List Markup.Element)
    (closingTag : Bool) : State :=
  { s with said := s.said ++ earlier, elements, closingTag }

section Frame

variable (s : State) (x : List Signal) (es : List Markup.Element) (b : Bool)

@[simp] theorem amid_before : (s.amid x es b).before = s.before := rfl
@[simp] theorem amid_pending : (s.amid x es b).pending = s.pending := rfl
@[simp] theorem amid_position : (s.amid x es b).position = s.position := rfl
@[simp] theorem amid_line : (s.amid x es b).line = s.line := rfl
@[simp] theorem amid_depth : (s.amid x es b).depth = s.depth := rfl
@[simp] theorem amid_stack : (s.amid x es b).stack = s.stack := rfl
@[simp] theorem amid_headerOver : (s.amid x es b).headerOver = s.headerOver := rfl
@[simp] theorem amid_top : (s.amid x es b).top = s.top := rfl
@[simp] theorem amid_previous? : (s.amid x es b).previous? = s.previous? := rfl
@[simp] theorem amid_slice (n : Nat) : (s.amid x es b).slice n = s.slice n := rfl

@[simp] theorem amid_inTextOf (sort : Construct → Bool) :
    (s.amid x es b).inTextOf sort = s.inTextOf sort := rfl

@[simp] theorem amid_onlyBlankBefore (width : Nat) :
    (s.amid x es b).onlyBlankBefore width = s.onlyBlankBefore width := rfl

@[simp] theorem amid_lastArgument : (s.amid x es b).lastArgument = s.lastArgument := rfl

/-! ## Operations -/

@[simp] theorem amid_advance (c : Char) : (s.amid x es b).advance c = (s.advance c).amid x es b :=
  rfl

@[simp] theorem amid_push (k : Construct) : (s.amid x es b).push k = (s.push k).amid x es b := rfl

@[simp] theorem amid_pop : (s.amid x es b).pop = s.pop.amid x es b := by
  unfold pop
  rw [amid_stack]
  split <;> rfl

@[simp] theorem amid_become (k : Construct) :
    (s.amid x es b).become k = (s.become k).amid x es b := by
  unfold become
  rw [amid_stack]
  split <;> rfl

@[simp] theorem amid_signal (signal : Signal) :
    (s.amid x es b).signal signal = (s.signal signal).amid x es b := rfl

@[simp] theorem amid_emit (body : Event.Body) :
    (s.amid x es b).emit body = (s.emit body).amid x es b := by
  rw [emit_eq, emit_eq]
  simp [amid, announcement]

@[simp] theorem amid_report (fault : Fault) :
    (s.amid x es b).report fault = (s.report fault).amid x es b := rfl

@[simp] theorem amid_reportUnbalanced (closing : Directive) (opening : String) :
    (s.amid x es b).reportUnbalanced closing opening =
      (s.reportUnbalanced closing opening).amid x es b := rfl

@[simp] theorem amid_keep (n : Nat) : (s.amid x es b).keep n = (s.keep n).amid x es b := rfl

@[simp] theorem amid_settle : (s.amid x es b).settle = s.settle.amid x es b := rfl

@[simp] theorem amid_flush (n : Nat) : (s.amid x es b).flush n = (s.flush n).amid x es b := by
  unfold flush
  rw [amid_top, amid_pending, amid_slice, amid_emit]
  split <;> rfl

/-! ## Code -/

theorem amid_closeBrace : (s.amid x es b).closeBrace = s.closeBrace.amid x es b := by
  unfold closeBrace
  simp only [amid_top, amid_slice, amid_pop, amid_settle, amid_emit]
  split
  · rfl
  · split <;> rfl
  · split <;> rfl
  · rfl

theorem amid_closeHeader (body : Text.Slice → Event.Body) :
    (s.amid x es b).closeHeader body = (s.closeHeader body).amid x es b := by
  simp [closeHeader]

theorem amid_closeCall (call : PendingCall) :
    (s.amid x es b).closeCall call = (s.closeCall call).amid x es b := by
  unfold closeCall
  simp only [amid_lastArgument, amid_pop, amid_settle, amid_emit]
  split <;> simp

theorem amid_closeParenthesis :
    (s.amid x es b).closeParenthesis = s.closeParenthesis.amid x es b := by
  unfold closeParenthesis
  simp only [amid_top, amid_pop, amid_closeHeader, amid_closeCall]
  split
  · split <;> rfl
  · split <;> rfl
  · rfl
  · rfl

theorem amid_openParenthesis :
    (s.amid x es b).openParenthesis = s.openParenthesis.amid x es b := by
  unfold openParenthesis
  simp only [amid_top, amid_push]
  split <;> rfl

theorem amid_splitArgument : (s.amid x es b).splitArgument = s.splitArgument.amid x es b := by
  unfold splitArgument
  simp only [amid_top, amid_lastArgument, amid_become, amid_settle]
  split <;> rfl

theorem amid_openAngle (after : List Char) :
    (s.amid x es b).openAngle after = (s.openAngle after).amid x es b := by
  unfold openAngle
  simp only [amid_top, amid_before, amid_become]
  split
  · split <;> rfl
  · rfl

theorem amid_closeAngle : (s.amid x es b).closeAngle = s.closeAngle.amid x es b := by
  unfold closeAngle
  simp only [amid_top, amid_previous?, amid_become]
  split
  · split <;> rfl
  · rfl

theorem amid_readCode (c : Char) (after : List Char) :
    (s.amid x es b).readCode c after = (s.readCode c after).amid x es b := by
  unfold readCode
  split <;>
    simp only [amid_push, amid_closeBrace, amid_openParenthesis, amid_closeParenthesis,
      amid_splitArgument, amid_openAngle, amid_closeAngle]

theorem amid_readString (c : Char) (escaping : Bool) :
    (s.amid x es b).readString c escaping = (s.readString c escaping).amid x es b := by
  unfold readString
  split
  · simp
  · split <;> simp

/-! ## Directives -/

theorem amid_beginDeclaration (width : Nat) (k : Construct) :
    (s.amid x es b).beginDeclaration width k = (s.beginDeclaration width k).amid x es b := by
  unfold beginDeclaration
  simp only [amid_headerOver, amid_onlyBlankBefore, amid_flush]
  split <;> simp

theorem amid_endDeclaration (width : Nat) :
    (s.amid x es b).endDeclaration width = (s.endDeclaration width).amid x es b := by
  unfold endDeclaration
  simp only [amid_slice, amid_top, amid_pop, amid_settle, amid_headerOver, amid_emit, amid_report]
  split
  · rfl
  · split
    · split <;> rfl
    · rfl

theorem amid_begin (width : Nat) (k : Construct) :
    (s.amid x es b).begin width k = (s.begin width k).amid x es b := by
  simp [begin]

theorem amid_conditionElse (width : Nat) :
    (s.amid x es b).conditionElse width = (s.conditionElse width).amid x es b := by
  unfold conditionElse
  rw [amid_inTextOf]
  split <;> simp

theorem amid_conditionElseIf (width : Nat) :
    (s.amid x es b).conditionElseIf width = (s.conditionElseIf width).amid x es b := by
  unfold conditionElseIf
  rw [amid_inTextOf]
  split <;> simp

theorem amid_endBlock (closing opening : Directive) (sort : Construct → Bool)
    (body : Event.Body) : (s.amid x es b).endBlock closing opening sort body =
      (s.endBlock closing opening sort body).amid x es b := by
  unfold endBlock
  rw [amid_inTextOf]
  split <;> simp

theorem amid_beginArguments (kind : CallKind) :
    (s.amid x es b).beginArguments kind = (s.beginArguments kind).amid x es b := by
  let reference := (s.pending.drop 1).reverse.filter fun c => !Text.isBlank c
  let call : Construct := .arguments { kind, reference := String.ofList reference } 0
  show (if reference.isEmpty then (s.report (.namelessCall kind)).amid x es b
      else s.amid x es b).settle.become call =
    ((if reference.isEmpty then s.report (.namelessCall kind) else s).settle.become call).amid x es b
  split <;> simp only [amid_settle, amid_become]

theorem amid_endLayout : (s.amid x es b).endLayout = s.endLayout.amid x es b := by
  unfold endLayout
  rw [amid_top]
  split <;> simp

theorem amid_beginSlot : (s.amid x es b).beginSlot = s.beginSlot.amid x es b := by
  unfold beginSlot
  rw [amid_top]
  split <;> simp

theorem amid_beginSlotText : (s.amid x es b).beginSlotText = s.beginSlotText.amid x es b := by
  simp only [beginSlotText, amid_slice, amid_emit, amid_settle, amid_push]
  rfl

theorem amid_endSlot (width : Nat) :
    (s.amid x es b).endSlot width = (s.endSlot width).amid x es b := by
  unfold endSlot
  rw [amid_inTextOf]
  split
  · simp only [amid_flush, amid_settle, amid_pop]
    exact amid_emit { (s.flush width).settle.pop.pop with
      depth := (s.flush width).settle.pop.pop.depth - 2 } x es b .slotEnd
  · simp

theorem amid_endRender (kind : Kind) :
    (s.amid x es b).endRender kind = (s.endRender kind).amid x es b := by
  unfold endRender
  simp only [amid_slice, amid_settle, amid_pop]
  split <;> simp

theorem amid_obey (d : Directive) : (s.amid x es b).obey d = (s.obey d).amid x es b := by
  unfold obey
  split <;>
    simp only [amid_flush, amid_push, amid_beginDeclaration, amid_begin, amid_conditionElse,
      amid_conditionElseIf, amid_endBlock, amid_endLayout, amid_beginSlot, amid_endSlot]

theorem amid_parenthesisBegins :
    (s.amid x es b).parenthesisBegins = s.parenthesisBegins.amid x es b := by
  unfold parenthesisBegins
  simp only [amid_top, amid_settle, amid_push]
  split <;> rfl

theorem amid_parenthesisEnds (kind : Kind) :
    (s.amid x es b).parenthesisEnds kind = (s.parenthesisEnds kind).amid x es b := by
  unfold parenthesisEnds
  simp only [amid_top, amid_beginSlotText, amid_endRender]
  split <;> rfl

/-! ## One character -/

/-- **Where no markup is followed, a character does the same whatever the elements
are**, and whatever has been said. -/
theorem amid_readChar (setting : Setting) (c : Char) (after : List Char)
    (h : s.top ≠ .text ∨ Markup.Interest.active? setting.interest? = none) :
    (s.amid x es b).readChar setting c after = (s.readChar setting c after).amid x es b := by
  have text : (s.amid x es b).readText setting c after =
      (s.readText setting c after).amid x es b := by
    unfold readText
    rw [amid_before, amid_top]
    split
    · exact amid_obey s x es b _
    · split
      · exact amid_parenthesisBegins s x es b
      · exact amid_parenthesisEnds s x es b _
      · rename_i htop hactive
        rcases h with h | h
        · exact absurd htop h
        · rw [h] at hactive
          cases hactive
      · rfl
  unfold readChar
  rw [amid_top, amid_before]
  split <;>
    first
    | exact text
    | exact amid_readCode s x es b c after
    | exact amid_readString s x es b c _
    | (split <;> simp [amid_endDeclaration, amid_beginArguments])

/-- A line ends whatever the elements are. -/
theorem amid_endLine (c : Char) : (s.amid x es b).endLine c = (s.endLine c).amid x es b := by
  unfold endLine
  split
  · rw [amid_emit]
    rfl
  · rfl

/-- So does the input. -/
theorem amid_settled : (s.amid x es b).settled = s.settled.amid x es b := by
  unfold settled
  simp only [amid_top, amid_endDeclaration]
  split <;> simp

end Frame

end Templating.Scan.State
