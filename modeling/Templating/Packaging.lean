import Templating.Configuration
import Templating.Files.Tree
import Templating.Packaging.Bundle
import Templating.Packaging.Manifest
import Templating.Text.Utf8

/-!
# Packaging a batch

The files in which a batch is delivered: its sources, in one bundle or a file
each, the binaries of the units that have one, and a manifest.
-/

namespace Templating.Packaging

def bundleFile : String := "stencil_templates.rs"

def manifestFile : String := "stencil-manifest.json"

/-- A file of output, by its path in the output directory. -/
structure OutputFile where
  path : String
  content : List UInt8
deriving DecidableEq

def textFile (path text : String) : OutputFile :=
  ⟨path, Text.toBytes text.toList⟩

/-- The binaries of the units that have one. -/
def binaryFiles (units : List SourceUnit) : List OutputFile :=
  (units.filter SourceUnit.hasBinary).map fun u => ⟨u.address.binaryFile, u.binary⟩

/-- All files of a batch, in the order in which they are written. -/
def files (delivery : Delivery) (units : List SourceUnit) : List OutputFile :=
  match delivery with
  | .bundle =>
      [textFile bundleFile (bundle units)] ++ binaryFiles units ++
      [textFile manifestFile (manifest .rust (fun _ => bundleFile) units)]
  | .separate =>
      units.map (fun u => textFile u.address.sourceFile u.code) ++ binaryFiles units ++
      [textFile manifestFile (manifest .kotlin (fun u => u.address.sourceFile) units)]

/-- Write the files of a batch below a directory of a tree. -/
def deliver (delivery : Delivery) (here : Files.Place) (directory : String) (units : List SourceUnit)
    (tree : Files.Tree) : Files.Tree × Option Files.Fault :=
  tree.writeAll here ((files delivery units).map fun f =>
    (Files.join directory f.path, { content := f.content }))

end Templating.Packaging
