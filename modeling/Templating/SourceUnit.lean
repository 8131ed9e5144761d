import Templating.SourceUnit.Address
import Templating.SourceUnit.LineMap

/-!
# Source units

A source unit is the code generated from one template. Long static text may be
kept out of the code, as binary parts that the code refers to by position.
-/

namespace Templating

structure SourceUnit where
  address : Address
  code : String := ""
  lineMap : LineMap := {}
  /-- Static text kept out of the code, in the order it is referred to. -/
  binaryParts : List (List UInt8) := []

namespace SourceUnit

def identifier (u : SourceUnit) : String :=
  u.address.identifier

def template (u : SourceUnit) : Name :=
  u.address.template

def hasBinary (u : SourceUnit) : Bool :=
  !u.binaryParts.isEmpty

/-- The binary parts one after the other. -/
def binary (u : SourceUnit) : List UInt8 :=
  u.binaryParts.flatten

/-- Two units are interchangeable in a batch when they live at the same place,
whatever their code. -/
def samePlace (u v : SourceUnit) : Bool :=
  u.address.unitName == v.address.unitName && u.address.package == v.address.package

/-- The unit as it is shown in a dump. -/
def shown (u : SourceUnit) : String :=
  "ClassDefinition \x7b identifier: " ++ Text.quoted u.identifier ++
    ", lines: " ++ toString u.lineMap.length ++
    ", binary_parts: " ++ toString u.binaryParts.length ++ ", .. \x7d"

/-- How many places the units live at. -/
def places (units : List SourceUnit) : Nat :=
  (units.eraseDupsBy samePlace).length

end SourceUnit

end Templating
