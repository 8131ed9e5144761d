import Templating.Command

/-!
# The command line program

Looks at the files that a command is about, lets `Command.execute` decide what
is to be done, and does it: prints, writes the files that changed, and exits.
-/

namespace Templating.Main

/-- The place a path is about, going by its names alone. -/
def placeOf (here : Files.Place) (path : String) : Files.Place :=
  (Files.names path).foldl
    (fun place name =>
      if Files.isStill name then place
      else if name = ".." then place.dropLast
      else place ++ [name])
    (if Files.isAbsolute path then [] else here)

def pathOf (place : Files.Place) : String :=
  "/" ++ String.intercalate "/" place

/-- Take what is at a place into the tree; the content of a file only if it is
wanted. -/
def look (wanted : Bool) (tree : Files.Tree) (place : Files.Place) : IO Files.Tree := do
  let path := (← IO.currentDir) / pathOf place
  if ← path.isDir then return tree.addDirectory place
  else if ← path.pathExists then
    let content ← if wanted then IO.FS.readBinFile path else pure ByteArray.empty
    return { tree with files := tree.files.set place { content := content.toList } }
  else return tree

/-- Take everything below a place into the tree. -/
partial def lookBelow (wanted : String → Bool) (tree : Files.Tree) (place : Files.Place) :
    IO Files.Tree := do
  let path := (← IO.currentDir) / pathOf place
  let tree ← look (wanted (place.getLast?.getD "")) tree place
  if ← path.isDir then
    let mut tree := tree
    for entry in ← path.readDir do
      tree ← lookBelow wanted tree (place ++ [entry.fileName])
    return tree
  else return tree

/-- Take the directories on the way to a place into the tree. -/
def lookAlong (tree : Files.Tree) (place : Files.Place) : IO Files.Tree :=
  (List.range place.length).foldlM (fun tree n => look false tree (place.take n)) tree

/-- Take a place into the tree, the directories on the way to it, and what is
below it. -/
def lookAt (wanted : String → Bool) (tree : Files.Tree) (place : Files.Place) :
    IO Files.Tree := do
  lookBelow wanted (← lookAlong tree place) place

/-- The files a command is about. -/
def surroundings (here : Files.Place) (arguments : List String) : IO Files.Tree := do
  let around ← look false (← lookAlong {} here) here
  match Command.ofArguments arguments with
  | .ok (.generate root options) =>
      let tree ← lookAt (fun _ => false) around (placeOf here options.configuration.output)
      lookAt Directory.isTemplate tree (placeOf here root)
  | .ok (.check root _) | .ok (.dependents root _) =>
      lookAt Directory.isTemplate around (placeOf here root)
  | .ok (.parse path) => lookAt (fun _ => true) around (placeOf here path)
  | _ => return around

/-- Write the files of one tree that are not the same in another. -/
def writeChanged (before after : Files.Tree) : IO Unit := do
  for (place, file) in after.files.entries do
    if (before.files.get? place).map Files.File.content != some file.content then
      IO.FS.createDirAll (pathOf place.dropLast)
      IO.FS.writeBinFile (pathOf place) (ByteArray.mk file.content.toArray)

def run (arguments : List String) : IO UInt32 := do
  let here := placeOf [] (← IO.currentDir).toString
  let before ← surroundings here arguments
  let outcome := Command.execute ⟨before, here⟩ arguments
  writeChanged before outcome.tree
  IO.print outcome.stdout
  IO.eprint outcome.stderr
  return UInt32.ofNat outcome.code

end Templating.Main

def main (arguments : List String) : IO UInt32 :=
  Templating.Main.run arguments
