import Templating.Diagnostic.Code
import Templating.Name

/-!
# Diagnostics

A diagnostic is one problem with its code and, where they are known, the
template and line it is about. Line 0 stands for no line.
-/

namespace Templating

/-- A line of a template, counted from 1. -/
structure Location where
  template : Name
  line : Nat
deriving DecidableEq, Repr

def Location.shown (l : Location) : String :=
  l.template.text ++ ":" ++ toString l.line

structure Diagnostic where
  code : Diagnostic.Code
  template? : Option Name := none
  line : Nat
  message : String
deriving DecidableEq, Repr

namespace Diagnostic

/-- The diagnostic attached to a template. -/
def inTemplate (d : Diagnostic) (template : Name) : Diagnostic :=
  { d with template? := some template }

/-- Where the diagnostic points, as it is shown before the message. -/
def place (d : Diagnostic) : String :=
  match d.template? with
  | some template =>
      if d.line = 0 then template.text ++ ": "
      else template.text ++ ":" ++ toString d.line ++ ": "
  | none => if d.line = 0 then "" else "line " ++ toString d.line ++ ": "

def shown (d : Diagnostic) : String :=
  d.place ++ "error[" ++ d.code.label ++ "]: " ++ d.message

end Diagnostic

end Templating
