import Templating.Scan.Directive

/-!
# Constructs

What the scanner is in the middle of at any moment is a stack of constructs,
each with the line it was begun on. A construct is named in a diagnostic when
the input ends inside it.
-/

namespace Templating.Scan

/-- A call whose arguments are being read. -/
structure PendingCall where
  kind : CallKind
  reference : String
  arguments : List Text.Slice := []
deriving DecidableEq

inductive Construct where
  /-- Template content. -/
  | text
  | imported
  | param
  | comment
  | expression (escaping : Escaping)
  | statement
  /-- Braces inside code. -/
  | block
  /-- A condition, up to its opening parenthesis and around its branches. -/
  | condition
  /-- The same from the first `@elseif` on. -/
  | conditionElseIf
  | loop
  /-- One open parenthesis of a loop header. -/
  | loopHeader
  /-- Parentheses inside code. -/
  | parentheses
  /-- A string inside code; `escaping` after a backslash. -/
  | string (escaping : Bool)
  /-- The dotted reference of a call. -/
  | reference (kind : CallKind)
  /-- The arguments of a call, with `angles` open angle brackets in the
  current one. -/
  | arguments (call : PendingCall) (angles : Nat)
  /-- Between the arguments of a layout call and its end. -/
  | layoutBody
  | slot
  | render
deriving DecidableEq

namespace Construct

/-- How far a construct is about a condition. -/
def isCondition : Construct → Bool
  | condition | conditionElseIf => true
  | _ => false

def ofCall : CallKind → String
  | .tag => "`@tag` call"
  | .layout => "`@layout` call"

/-- How the construct reads in a diagnostic. -/
def describe : Construct → String
  | text => "text block"
  | imported => "`@import` declaration"
  | param => "`@param` declaration"
  | comment => "`<%--` comment"
  | expression .escaped => "`$\x7b` expression"
  | expression .raw => "`$unsafe\x7b` expression"
  | statement => "`!\x7b` statement"
  | block => "`\x7b` block"
  | condition => "`@if` block"
  | conditionElseIf => "`@elseif` block"
  | loop => "`@for` loop"
  | loopHeader => "`@for` header"
  | parentheses => "parenthesis"
  | string _ => "string literal"
  | reference kind => ofCall kind
  | arguments call _ => ofCall call.kind
  | layoutBody => "`@layout` call"
  | slot => "`@define` block"
  | render => "`@render` call"

end Construct

/-- A construct and the line it was begun on. -/
structure Frame where
  construct : Construct
  line : Nat
deriving DecidableEq

end Templating.Scan
