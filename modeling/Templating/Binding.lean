import Templating.Argument
import Templating.Diagnostic.Code
import Templating.Param

/-!
# Binding arguments to parameters

The arguments of a call are matched to the parameters that the callee
declares: positional ones in order, named ones by name. From the first variadic
parameter on, positional arguments all go to it. A parameter that receives
nothing takes its default.
-/

namespace Templating

/-- What is bound to one parameter. -/
inductive Bound where
  | single (value : String)
  | variadic (values : List String)
deriving DecidableEq, Repr

namespace Binding

/-- Why arguments cannot be bound. -/
inductive Problem where
  | missing (param : String)
  | unknown (name : String)
  | duplicate (param : String)
  | tooMany (expected found : Nat)
deriving DecidableEq, Repr

namespace Problem

def code : Problem → Diagnostic.Code
  | missing _ => .missingArgument
  | unknown _ => .unknownArgument
  | duplicate _ => .duplicateArgument
  | tooMany .. => .tooManyArguments

def message : Problem → String
  | missing param => "missing required argument `" ++ param ++ "`"
  | unknown name => "no parameter named `" ++ name ++ "`"
  | duplicate param => "parameter `" ++ param ++ "` is bound more than once"
  | tooMany expected found =>
      "expected at most " ++ toString expected ++ " argument(s), found " ++ toString found

end Problem

/-- The arguments placed so far: one slot a parameter, and beside them what
goes to the variadic one. -/
structure Filling where
  slots : List (Option String)
  rest : List String := []
  /-- The variadic parameter was given by name. -/
  restNamed : Bool := false
  /-- How many positional arguments have been placed. -/
  next : Nat := 0
deriving DecidableEq

namespace Filling

/-- Nothing placed yet. -/
def start (params : List Param) : Filling :=
  { slots := params.map fun _ => none }

/-- Put a value into an empty slot. -/
def fill (f : Filling) (index : Nat) (param : Param) (value : String) : Except Problem Filling :=
  match f.slots[index]? with
  | some (some _) => .error (.duplicate param.name)
  | _ => .ok { f with slots := f.slots.set index (some value) }

/-- Give a positional value to the variadic parameter. -/
def addToRest (f : Filling) (param : Param) (value : String) : Except Problem Filling :=
  if f.restNamed then .error (.duplicate param.name)
  else .ok { f with rest := f.rest ++ [value] }

/-- Give the variadic parameter its value by name. -/
def nameRest (f : Filling) (name value : String) : Except Problem Filling :=
  if f.restNamed || !f.rest.isEmpty then .error (.duplicate name)
  else .ok { f with rest := [value], restNamed := true }

/-- The parameter that the next positional argument goes to: the variadic one
once its turn has come. -/
def target? (f : Filling) (params : List Param) : Option (Nat × Param) :=
  let index := match params.findIdx? Param.variadic with
    | some v => min f.next v
    | none => f.next
  params[index]?.map fun p => (index, p)

/-- Place a positional argument; `total` is the number of them all. -/
def placePositional (f : Filling) (params : List Param) (total : Nat) (value : String) :
    Except Problem Filling := do
  match f.target? params with
  | none => .error (.tooMany params.length total)
  | some (index, p) =>
      let f ← if p.variadic then f.addToRest p value else f.fill index p value
      return { f with next := f.next + 1 }

/-- Place a named argument at the first parameter of that name. -/
def placeNamed (f : Filling) (params : List Param) (name value : String) :
    Except Problem Filling :=
  match params.findIdx? fun p => p.name == name with
  | none => .error (.unknown name)
  | some index =>
      match params[index]? with
      | none => .error (.unknown name)
      | some p => if p.variadic then f.nameRest name value else f.fill index p value

def place (params : List Param) (total : Nat) (f : Filling) : Argument →
    Except Problem Filling
  | .positional value => f.placePositional params total value
  | .named name value => f.placeNamed params name value

end Filling

/-- What each parameter is bound to, in order. The first variadic parameter
takes all of `rest`. -/
def collect : List Param → List (Option String) → List String → Except Problem (List Bound)
  | [], _, _ => .ok []
  | p :: ps, slots, rest => do
      if p.variadic then
        return .variadic rest :: (← collect ps slots.tail [])
      match slots.head?.join, p.default? with
      | some value, _ => return .single value :: (← collect ps slots.tail rest)
      | none, some value => return .single value :: (← collect ps slots.tail rest)
      | none, none => .error (.missing p.name)

/-- Bind arguments to parameters: one entry a parameter, in declared order. -/
def bind (params : List Param) (arguments : List Argument) : Except Problem (List Bound) := do
  let total := (arguments.filter Argument.isPositional).length
  let filling ← arguments.foldlM (Filling.place params total) (Filling.start params)
  collect params filling.slots filling.rest

end Binding

end Templating
