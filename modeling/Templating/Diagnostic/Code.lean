/-!
# Diagnostic codes

Every problem that is reported has a code. The first digit says where it
arises: 1 in reading a template, 2 in following and binding calls, 3 in a
batch as a whole.
-/

namespace Templating.Diagnostic

inductive Code where
  /-- A parameter declaration that declares nothing. -/
  | malformedParam
  /-- The input ends inside a construct. -/
  | unterminated
  /-- A directive without the one it belongs to. -/
  | unbalanced
  /-- A declaration after the template has begun. -/
  | misplaced
  /-- A slot rendered outside a layout. -/
  | strayRender
  /-- A parameter without a type. -/
  | untypedParam
  | notFound
  | missingArgument
  | unknownArgument
  | duplicateArgument
  | tooManyArguments
  /-- Two templates with one generated name. -/
  | collision
  /-- Units of more than one target in a batch. -/
  | mixedTargets
  /-- The generated units do not compile. -/
  | rejectedOutput
deriving DecidableEq, Repr

namespace Code

/-- Every code, in order. -/
def all : List Code :=
  [malformedParam, unterminated, unbalanced, misplaced, strayRender, untypedParam,
    notFound, missingArgument, unknownArgument, duplicateArgument, tooManyArguments, collision,
    mixedTargets, rejectedOutput]

theorem mem_all (c : Code) : c ∈ all := by
  cases c <;> decide

/-- How the code is written. -/
def label : Code → String
  | malformedParam => "E1001"
  | unterminated => "E1002"
  | unbalanced => "E1003"
  | misplaced => "E1004"
  | strayRender => "E1005"
  | untypedParam => "E1006"
  | notFound => "E2001"
  | missingArgument => "E2002"
  | unknownArgument => "E2003"
  | duplicateArgument => "E2004"
  | tooManyArguments => "E2005"
  | collision => "E2006"
  | mixedTargets => "E3001"
  | rejectedOutput => "E3002"

/-- The title shown beside the code. -/
def title : Code → String
  | malformedParam => "malformed parameter declaration"
  | unterminated => "unterminated construct"
  | unbalanced => "unbalanced directive"
  | misplaced => "misplaced declaration"
  | strayRender => "render outside layout"
  | untypedParam => "missing parameter type"
  | notFound => "template not found"
  | missingArgument => "missing required argument"
  | unknownArgument => "unknown argument"
  | duplicateArgument => "duplicate argument"
  | tooManyArguments => "too many arguments"
  | collision => "generated name collision"
  | mixedTargets => "mixed unit kinds unsupported"
  | rejectedOutput => "backend compilation failed"

/-- The problem arises in reading a template. -/
def isReading (c : Code) : Bool :=
  "E1".toList.isPrefixOf c.label.toList

/-- The code written so, in either case. -/
def ofLabel? (text : String) : Option Code :=
  let upper := text.toList.map Char.toUpper
  all.find? fun c => c.label.toList == upper

end Code

end Templating.Diagnostic
