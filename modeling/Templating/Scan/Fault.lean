import Templating.Diagnostic
import Templating.Param.Declaration
import Templating.Scan.Construct

/-!
# Faults

What can be wrong with a template, by cause. A fault does not stop the
scanner, so one reading finds them all.
-/

namespace Templating.Scan

inductive Fault where
  | declaration (fault : Param.DeclarationFault)
  | unterminated (construct : Construct)
  /-- A closing word without the opening one it needs. -/
  | unbalanced (closing opening : String)
  | slotOutsideCall
  | namelessCall (kind : CallKind)
  /-- A declaration, written with that word, after the header. -/
  | misplaced (word : String)
  | renderOutsideLayout (slot : String)
deriving DecidableEq

namespace Fault

def code : Fault → Diagnostic.Code
  | declaration _ => .malformedParam
  | unterminated _ => .unterminated
  | unbalanced .. | slotOutsideCall | namelessCall _ => .unbalanced
  | misplaced _ => .misplaced
  | renderOutsideLayout _ => .strayRender

def message : Fault → String
  | declaration fault => fault.message
  | unterminated construct => "unterminated " ++ construct.describe ++ " (reached end of input)"
  | unbalanced closing opening => "`" ++ closing ++ "` without a matching `" ++ opening ++ "`"
  | slotOutsideCall => "`@define` is only allowed inside a `@layout` call"
  | namelessCall kind => "`" ++ kind.word ++ ".` is missing a name"
  | misplaced word => "`" ++ word ++ "` must come before any template content"
  | renderOutsideLayout slot => "`@render(" ++ slot ++ ")` is only allowed in layouts"

end Fault

/-- A fault and the line it is about. -/
structure Problem where
  line : Nat
  fault : Fault
deriving DecidableEq

def Problem.diagnostic (p : Problem) : Diagnostic :=
  ⟨p.fault.code, none, p.line, p.fault.message⟩

/-- What the scanner says, one thing after the other. -/
inductive Signal where
  | event (event : Event)
  | problem (problem : Problem)
deriving DecidableEq

def Signal.event? : Signal → Option Event
  | event e => some e
  | problem _ => none

def Signal.problem? : Signal → Option Problem
  | event _ => none
  | problem p => some p

end Templating.Scan
