import Templating.Files.Tree
import Templating.Library
import Templating.Text.Utf8

/-!
# Libraries in directories

The sources are the files below a directory, named by their path in it. A
template counts as changed if the time its file was written is not the one
noted when it was last fetched; one that was never fetched counts as changed.
-/

namespace Templating

structure Directory where
  tree : Files.Tree := {}
  /-- Where paths start. -/
  here : Files.Place := []
  /-- The path of the directory. -/
  root : String
  /-- When the files were written that have been fetched. -/
  noted : Table Name Nat := {}

namespace Directory

def path (d : Directory) (name : Name) : String :=
  Files.join d.root name.text

/-- The file of a template. -/
def file (d : Directory) (name : Name) : Except Files.Fault Files.File :=
  d.tree.file d.here (d.path name)

def fetch (d : Directory) (name : Name) : Except Files.Fault (Option String) × Directory :=
  match d.file name with
  | .error .absent => (.ok none, d)
  | .error fault => (.error fault, d)
  | .ok file =>
      match Text.ofBytes? file.content with
      | none => (.error .notText, d)
      | some source =>
          (.ok (some (String.ofList source)), { d with noted := d.noted.set name file.modified })

def hasChanged (d : Directory) (name : Name) : Bool :=
  match d.noted.get? name, d.file name with
  | some noted, .ok file => noted != file.modified
  | _, _ => true

/-- A file name that ends with the extension of templates and has something
before it. -/
def isTemplate (fileName : String) : Bool :=
  match Text.splitLast '.' fileName.toList with
  | some (stem, extension) =>
      !stem.isEmpty &&
        (String.ofList extension = Target.rust.templateExtension ||
          String.ofList extension = Target.kotlin.templateExtension)
  | none => false

/-- The names of all files that are templates. -/
def names (d : Directory) : Except Files.Fault (List Name) := do
  let files ← d.tree.filesBelow d.here d.root
  let templates := files.filter fun (place, _) => (place.getLast?.map isTemplate).getD false
  return Name.sort (templates.map fun (place, _) => ⟨String.intercalate "/" place⟩)

/-- Two names may lead to one file, but only the name that is requested itself
can be spelled in such a way; hence one more than there are files. -/
def capacity (d : Directory) : Nat :=
  d.tree.files.size + 1

instance : Library Directory where
  fetch := fetch
  hasChanged := hasChanged
  names := names
  capacity := capacity

end Directory

end Templating
