import Templating.Failure
import Templating.SourceUnit

/-!
# Batches

The units that one request produces, callees before their callers.
-/

namespace Templating

/-- A problem that whatever compiles generated units finds in them. -/
structure OutputProblem where
  /-- The unit it is about. -/
  identifier : String
  /-- The line of the unit, counted from 1. -/
  line : Nat
  message : String
deriving DecidableEq, Repr

structure Batch where
  units : List SourceUnit := []

namespace Batch

def length (b : Batch) : Nat :=
  b.units.length

def isEmpty (b : Batch) : Bool :=
  b.units.isEmpty

/-- The place of the unit with an identifier. -/
def unitIndex? (b : Batch) (identifier : String) : Option Nat :=
  b.units.findIdx? fun u => u.identifier == identifier

/-- The unit with an identifier. -/
def unit? (b : Batch) (identifier : String) : Option SourceUnit :=
  b.units.find? fun u => u.identifier == identifier

/-- The place of the unit that was generated from a template. -/
def indexFor? (b : Batch) (name : Name) : Option Nat :=
  b.units.findIdx? fun u => u.template == name

/-- The targets of the units, each once, in order. -/
def targets (b : Batch) : List Target :=
  [Target.rust, Target.kotlin].filter fun t => b.units.any fun u => u.address.target == t

/-- The one target of the units, `none` if there are no units. -/
def target (b : Batch) : Except Failure (Option Target) :=
  match b.targets with
  | [] => .ok none
  | [t] => .ok (some t)
  | ts => .error (.mixedTargets ts)

/-- A problem in a generated line as a problem of the template line it comes
from. -/
def translate (b : Batch) (p : OutputProblem) : Diagnostic :=
  match b.unit? p.identifier with
  | some u =>
      ⟨.rejectedOutput, some u.template, (u.lineMap.templateLine? p.line).getD 1, p.message⟩
  | none => ⟨.rejectedOutput, none, 0, p.identifier ++ ": " ++ p.message⟩

end Batch

end Templating
