/-!
# Parameters

A template declares its parameters in order; the order is what positional
arguments bind against.
-/

namespace Templating

structure Param where
  name : String
  /-- Empty where none was declared. -/
  type : String := ""
  default? : Option String := none
  /-- Takes any number of arguments. -/
  variadic : Bool := false
deriving DecidableEq, Repr, Inhabited

/-- A caller has to supply an argument for this parameter. -/
def Param.isRequired (p : Param) : Bool :=
  p.default?.isNone && !p.variadic

end Templating
