import Templating.Name

/-!
# Where generated units live

Every template has an address: the package and name of the unit that is
generated from it. The package begins with a root and follows the directories
of the template. Only ASCII letters, digits and underscores occur in it, so an
address is a path in either target and on disk. For instance
`tag/my/card-list.stn` under the root `stencil.generated` is the unit
`StncardlistGenerated` of the package `stencil.generated.tag.my`.
-/

namespace Templating

structure Address where
  template : Name
  /-- The name of the unit inside its package. -/
  unitName : String
  /-- The segments of the package, outermost first. -/
  package : List String
  target : Target
deriving DecidableEq, Repr

namespace Address

/-- The root package when none is set. -/
def defaultRoot : String := "stencil.generated"

/-- May stand in an identifier of every target. -/
def isPlain (c : Char) : Bool :=
  c.isAlphanum || c == '_'

/-- Leave out hyphens, and put an underscore for everything else that is not
plain. -/
def plain (segment : String) : String :=
  String.ofList ((segment.toList.filter (· != '-')).map fun c => if isPlain c then c else '_')

/-- The address of a template under a root package. -/
def ofName (name : Name) (root : String) : Address where
  template := name
  unitName := "Stn" ++ plain name.stem ++ "Generated"
  package :=
    (((Text.pieces '.' root.toList).map String.ofList ++ name.directories).map plain).filter
      fun segment => segment ≠ ""
  target := name.target

/-- The package and the unit's name, with a separator between the segments. -/
def qualified (a : Address) (separator : String) : String :=
  String.intercalate separator (a.package ++ [a.unitName])

/-- What identifies the unit among all units of its target. -/
def identifier (a : Address) : String :=
  a.qualified "."

/-- The generated source file, relative to where output goes. -/
def sourceFile (a : Address) : String :=
  a.qualified "/" ++ "." ++ a.target.sourceExtension

/-- The file of static text kept out of the source. -/
def binaryFile (a : Address) : String :=
  a.qualified "/" ++ ".bin"

def kind (a : Address) : Kind :=
  a.template.kind

end Address

end Templating
