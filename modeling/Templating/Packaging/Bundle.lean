import Templating.SourceUnit

/-!
# Bundles

A bundle is one file with many units, each inside the nested modules that its
package names. The packages form a tree, in which every package occurs once;
the packages directly inside another one are kept in order.
-/

namespace Templating.Packaging

mutual

/-- The units of a package and the packages inside it. -/
inductive Package where
  | mk (units : List String) (inner : Packages)

/-- Packages by name, in order. -/
inductive Packages where
  | nil
  | cons (name : String) (package : Package) (rest : Packages)

end

/-- Nothing but one unit, down a path of packages. -/
def Package.single : List String → String → Package
  | [], code => .mk [code] .nil
  | name :: path, code => .mk [] (.cons name (single path code) .nil)

mutual

/-- Add a unit down a path of packages. -/
def Package.insert : Package → List String → String → Package
  | .mk units inner, [], code => .mk (units ++ [code]) inner
  | .mk units inner, name :: path, code => .mk units (inner.insert name path code)

def Packages.insert : Packages → String → List String → String → Packages
  | .nil, name, path, code => .cons name (Package.single path code) .nil
  | .cons other package rest, name, path, code =>
      if name = other then .cons other (package.insert path code) rest
      else if name < other then .cons name (Package.single path code) (.cons other package rest)
      else .cons other package (rest.insert name path code)

end

mutual

/-- The text of a package at a depth of nesting. Units are copied as they are,
since indenting them could change what is in their string literals. -/
def Package.write : Package → Nat → String
  | .mk units inner, depth =>
      String.join (units.map fun code => "\n" ++ code) ++ inner.write depth

def Packages.write : Packages → Nat → String
  | .nil, _ => ""
  | .cons name package rest, depth =>
      let indent := String.join (List.replicate depth "    ")
      "\n" ++ indent ++ "pub mod " ++ name ++ " \x7b\n" ++ package.write (depth + 1) ++
        indent ++ "\x7d\n" ++ rest.write depth

end

/-- The tree of the packages of the units. -/
def tree (units : List SourceUnit) : Package :=
  units.foldl (fun tree u => tree.insert u.address.package u.code) (.mk [] .nil)

/-- The text of the bundle. -/
def bundle (units : List SourceUnit) : String :=
  "// @generated by stencil. Do not edit.\n" ++ (tree units).write 0

end Templating.Packaging
