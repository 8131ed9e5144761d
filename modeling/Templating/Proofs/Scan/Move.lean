import Mathlib.Logic.Relation
import Templating.Proofs.Scan.Operations

/-!
# Moves of the scanner

A move lets go of text, says something, or changes the stack in one of few ways,
and it carries the guard under which the scanner makes it. Reading a character is
a chain of moves, so an invariant of the scan is checked move by move.
Declarations are not moves.
-/

namespace Templating

/-- The event neither opens nor closes a block, ends neither a line nor the
header, and declares nothing. -/
def Event.Body.isNeutral : Event.Body → Bool
  | .text _ | .expression .. | .statement _ | .render _ | .call .tag .. | .elementOpened _
  | .elementClosed _ | .attributeBegun .. | .complete => true
  | _ => false

/-- The event belongs to the text it stands in. -/
def Event.Body.isInline : Event.Body → Bool
  | .text _ | .expression .. | .statement _ | .elementOpened _ | .elementClosed _
  | .attributeBegun .. => true
  | _ => false

namespace Scan

namespace Construct

/-- The construct neither holds text nor stays open behind an event that has
been said. -/
def isPassive : Construct → Bool
  | text | conditionElseIf | layoutBody | slot => false
  | _ => true

/-- The construct is a declaration of the header. -/
def isDeclaration : Construct → Bool
  | imported | param => true
  | _ => false

theorem isPassive_of_isDeclaration {k : Construct} (h : k.isDeclaration = true) :
    k.isPassive = true := by
  cases k <;> first | rfl | exact absurd h (by simp [isDeclaration])

/-- In a declaration no directives are looked for. -/
theorem not_readsText_of_isDeclaration {k : Construct} (h : k.isDeclaration = true) :
    ¬ k.readsText = true := by
  cases k <;> first | (simp [readsText]; done) | exact absurd h (by simp [isDeclaration])

end Construct

/-- The header of that construct is over once it has said this. -/
inductive Heads : Construct → Event.Body → Prop where
  | condition (code : Text.Slice) : Heads .condition (.conditionBegin code)
  | conditionElseIf (code : Text.Slice) : Heads .conditionElseIf (.conditionElseIf code)
  | loop (code : Text.Slice) : Heads .loop (.loopBegin code)

/-- Blocks of that sort end with this. -/
inductive Ends : (Construct → Bool) → Event.Body → Prop where
  | condition : Ends Construct.isCondition .conditionEnd
  | loop : Ends (· == .loop) .loopEnd

open State in
/-- One move of the scanner. -/
inductive Move : State → State → Prop where
  | keep (s : State) (n : Nat) : Move s (s.keep n)
  | markup (s : State) (elements : List Markup.Element) (closingTag : Bool) :
      Move s { s with elements, closingTag }
  | report (s : State) (fault : Fault) : Move s (s.report fault)
  | say (s : State) (body : Event.Body) : body.isNeutral = true →
      (body.isInline = true → s.top = .text) → Move s (s.emit body)
  | enter (s : State) (k : Construct) : k.isPassive = true → s.top.isDeclaration = false →
      (k.isDeclaration = true → s.pending = []) → Move s (s.push k)
  | leave (s : State) : s.top.isPassive = true → Move s s.pop
  | become (s : State) (k : Construct) : s.top.isPassive = true → k.isPassive = true →
      k.isDeclaration = false → Move s (s.become k)
  | header (s : State) (body : Event.Body) : Heads s.top body →
      Move s ((s.emit body).push .text)
  | otherwise (s : State) : s.inTextOf Construct.isCondition = true →
      Move s ((s.pop.emit .conditionElse).push .text)
  | elseIf (s : State) : s.inTextOf Construct.isCondition = true →
      Move s (s.pop.pop.push .conditionElseIf)
  | endBlock (s : State) (sort : Construct → Bool) (body : Event.Body) : Ends sort body →
      s.inTextOf sort = true → Move s ((s.pop.emit body).pop)
  | layoutBegin (s : State) (call : PendingCall) (angles : Nat) (reference : String)
      (arguments : List Text.Slice) : s.top = .arguments call angles →
      Move s ((s.pop.emit (.call .layout reference arguments)).push .layoutBody)
  | layoutEnd (s : State) : s.top = .layoutBody → Move s (s.pop.emit .layoutEnd)
  | slotEnter (s : State) : s.top = .layoutBody → Move s (s.push .slot)
  | slotBegin (s : State) (name : Text.Slice) : s.top = .slot →
      Move s { (s.emit (.slotBegin name)).push .text with
        depth := ((s.emit (.slotBegin name)).push .text).depth + 2 }
  | slotEnd (s : State) : s.inTextOf (· == .slot) = true →
      Move s ({ s.pop.pop with depth := s.pop.pop.depth - 2 }.emit .slotEnd)

/-- A chain of moves. -/
def Moves : State → State → Prop :=
  Relation.ReflTransGen Move

namespace Moves

theorem refl (s : State) : Moves s s :=
  Relation.ReflTransGen.refl

theorem trans {s t u : State} (h : Moves s t) (h' : Moves t u) : Moves s u :=
  Relation.ReflTransGen.trans h h'

theorem single {s t : State} (h : Move s t) : Moves s t :=
  Relation.ReflTransGen.single h

/-- What every move preserves, a chain of moves preserves. -/
theorem preserves {P : State → Prop} (hmove : ∀ {s t : State}, Move s t → P s → P t)
    {s t : State} (h : Moves s t) (hs : P s) : P t := by
  induction h with
  | refl => exact hs
  | tail _ hst ih => exact hmove hst ih

end Moves

end Scan

end Templating
