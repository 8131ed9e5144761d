import Templating.Event

/-!
# Directives

A directive is a word that begins or ends a construct of a template. The
scanner reads character by character and asks at each whether the text so far
ends with a directive. At most one directive ends at any place, so the order
of `Directive.all` does not matter.
-/

namespace Templating

inductive Directive where
  | comment
  | imported
  | param
  | expression (escaping : Escaping)
  | statement
  | conditionBegin
  | conditionElse
  | conditionElseIf
  | conditionEnd
  | loopBegin
  | loopEnd
  | call (kind : CallKind)
  | layoutEnd
  | slotBegin
  | slotEnd
  | render
deriving DecidableEq, Repr

/-- The word a call of that kind is written with. -/
def CallKind.word : CallKind → String
  | tag => "@tag"
  | layout => "@layout"

namespace Directive

def all : List Directive :=
  [comment, imported, param, expression .escaped, expression .raw, statement,
    conditionBegin, conditionElse, conditionElseIf, conditionEnd, loopBegin, loopEnd,
    call .tag, call .layout, layoutEnd, slotBegin, slotEnd, render]

theorem mem_all (d : Directive) : d ∈ all := by
  cases d with
  | expression e => cases e <;> decide
  | call k => cases k <;> decide
  | _ => decide

/-- How the directive is written. -/
def word : Directive → String
  | comment => "<%--"
  | imported => "@import"
  | param => "@param"
  | expression .escaped => "$\x7b"
  | expression .raw => "$unsafe\x7b"
  | statement => "!\x7b"
  | conditionBegin => "@if"
  | conditionElse => "@else"
  | conditionElseIf => "@elseif"
  | conditionEnd => "@endif"
  | loopBegin => "@for"
  | loopEnd => "@endfor"
  | call .tag => "@tag."
  | call .layout => "@layout."
  | layoutEnd => "@endlayout"
  | slotBegin => "@define"
  | slotEnd => "@enddefine"
  | render => "@render"

/-- How many characters the directive is written with. -/
def width (d : Directive) : Nat :=
  d.word.toList.length

/-- The text whose characters, last one first, are `before` ends with the
directive. -/
def ends (before : List Char) (d : Directive) : Bool :=
  d.word.toList.reverse.isPrefixOf before

/-- The directive that ends where `after` begins. An `@else` that goes on with
the letter `i` is left alone, since `@elseif` may follow. -/
def endingAt? (before after : List Char) : Option Directive :=
  match all.find? (ends before) with
  | some conditionElse => if after.head? = some 'i' then none else some conditionElse
  | found? => found?

end Directive

end Templating
