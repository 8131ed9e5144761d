/-!
# Line maps

A line map says for each generated line which template line it comes from.
Generated lines are counted from 1.
-/

namespace Templating

structure LineMap where
  lines : List Nat := []
deriving DecidableEq, Repr, Inhabited

namespace LineMap

def length (m : LineMap) : Nat :=
  m.lines.length

def isEmpty (m : LineMap) : Bool :=
  m.lines.isEmpty

/-- Record the template line of the next generated line. -/
def push (m : LineMap) (templateLine : Nat) : LineMap :=
  ⟨m.lines ++ [templateLine]⟩

def append (m n : LineMap) : LineMap :=
  ⟨m.lines ++ n.lines⟩

/-- The template line of a generated line. There is no line 0. -/
def templateLine? (m : LineMap) (generatedLine : Nat) : Option Nat :=
  if generatedLine = 0 then none else m.lines[generatedLine - 1]?

end LineMap

end Templating
