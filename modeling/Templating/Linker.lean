import Templating.Failure
import Templating.Markup.Element
import Templating.SourceUnit.Address

/-!
# Linkers

A template is generated on its own, but its calls need to know what they call,
and elements of interest may have text put into them. A linker answers both.
It has a state, so that asking it for a callee may generate that callee first.
-/

namespace Templating

/-- A call as the template `caller` makes it. -/
structure CallRef where
  caller : Name
  line : Nat
  kind : CallKind
  /-- The template that is called. -/
  name : Name
deriving DecidableEq, Repr

/-- What a call needs to know about what it calls. -/
structure Callee where
  address : Address
  params : List Param
deriving DecidableEq, Repr

/-- A place in the markup where text may be put. -/
inductive Interception where
  /-- Just before the end of an opening tag. -/
  | opened (tag : String) (attributes : List Markup.Attribute)
  /-- Just after the opening quote of an attribute. -/
  | begun (tag name : String) (attributes : List Markup.Attribute)
  /-- Just before a closing tag. -/
  | closed (tag : String)
deriving DecidableEq, Repr

/-- Decides what is put there; nothing, where it is empty. -/
abbrev Hook : Type := Interception → String

structure Linker (σ : Type) where
  /-- Find the callee of a call. -/
  resolve : CallRef → StateM σ (Except Failure Callee)
  /-- Take note of all parameters that a template declares. -/
  declare : Name → List Param → StateM σ Unit
  /-- The text to put at a place in the markup. -/
  intercept : Interception → StateM σ String

end Templating
