import Templating.Files.Fault
import Templating.Table
import Templating.Text.Pieces

/-!
# File trees

Files and directories by their place, which is the list of names on the way
from the root. A path is text; it is followed name by name from some place, and
every name but the last has to be a directory. `.` and empty names stay where
they are, `..` goes up.
-/

namespace Templating.Files

/-- The names on the way from the root. -/
abbrev Place : Type := List String

structure File where
  content : List UInt8
  /-- When the file was last written. -/
  modified : Nat := 0
deriving DecidableEq

structure Tree where
  files : Table Place File := {}
  /-- All directories but the root. -/
  directories : List Place := []

/-- Whether a path starts at the root, whatever the current place. -/
def isAbsolute (path : String) : Bool :=
  path.toList.head? == some '/'

/-- The path `path` as seen from the directory `directory`. -/
def join (directory path : String) : String :=
  if isAbsolute path || directory = "" then path
  else if directory.toList.getLast? = some '/' then directory ++ path
  else directory ++ "/" ++ path

/-- The names in a path. -/
def names (path : String) : List String :=
  (Text.pieces '/' path.toList).map String.ofList

/-- A name that stays at a directory. -/
def isStill (name : String) : Bool :=
  name = "" || name = "."

namespace Tree

def isDirectory (t : Tree) (place : Place) : Bool :=
  place.isEmpty || t.directories.contains place

def isFile (t : Tree) (place : Place) : Bool :=
  t.files.contains place

/-- What is wrong with a place where a directory is needed. -/
def noDirectory (t : Tree) (place : Place) : Fault :=
  if t.isFile place then .notDirectory else .absent

/-- Follow names from a place. -/
def follow (t : Tree) (place : Place) : List String → Except Fault Place
  | [] => .ok place
  | name :: rest =>
      if t.isDirectory place then
        if isStill name then t.follow place rest
        else if name = ".." then t.follow place.dropLast rest
        else t.follow (place ++ [name]) rest
      else .error (t.noDirectory place)

/-- The place a path leads to from the place `here`. -/
def locate (t : Tree) (here : Place) (path : String) : Except Fault Place :=
  if path = "" then .error .absent
  else t.follow (if isAbsolute path then [] else here) (names path)

/-- The file at a path. -/
def file (t : Tree) (here : Place) (path : String) : Except Fault File := do
  let place ← t.locate here path
  match t.files.get? place with
  | some file => return file
  | none => .error (if t.isDirectory place then .isDirectory else .absent)

/-- What is left of a place below a directory. -/
def below? (directory place : Place) : Option Place :=
  if directory.isPrefixOf place && directory.length < place.length then
    some (place.drop directory.length)
  else none

/-- All files below the directory at a path, by their place in it. -/
def filesBelow (t : Tree) (here : Place) (path : String) : Except Fault (List (Place × File)) := do
  let place ← t.locate here path
  if t.isDirectory place then
    return t.files.entries.filterMap fun (p, file) => (below? place p).map fun rest => (rest, file)
  else .error (t.noDirectory place)

def addDirectory (t : Tree) (place : Place) : Tree :=
  if t.isDirectory place then t else { t with directories := t.directories ++ [place] }

/-- Follow names from a place, making the directories that are missing. -/
def makeDirectories (t : Tree) (place : Place) : List String → Except Fault (Tree × Place)
  | [] => .ok (t, place)
  | name :: rest =>
      if isStill name then t.makeDirectories place rest
      else if name = ".." then t.makeDirectories place.dropLast rest
      else
        let next := place ++ [name]
        if t.isFile next then .error (if rest.all isStill then .inTheWay else .notDirectory)
        else (t.addDirectory next).makeDirectories next rest

/-- Write a file, making the directories it lies in. -/
def write (t : Tree) (here : Place) (path : String) (file : File) : Except Fault Tree := do
  let start := if isAbsolute path then [] else here
  let (t, place) ← t.makeDirectories start (names path).dropLast
  let place ← t.follow place ((names path).getLast?.toList)
  if t.isDirectory place then .error .isDirectory
  else return { t with files := t.files.set place file }

/-- Write files one after the other, up to the first that fails. -/
def writeAll (t : Tree) (here : Place) : List (String × File) → Tree × Option Fault
  | [] => (t, none)
  | (path, file) :: rest =>
      match t.write here path file with
      | .ok t => t.writeAll here rest
      | .error fault => (t, some fault)

/-- Make a directory and those it lies in. -/
def makeDirectory (t : Tree) (here : Place) (path : String) : Except Fault Tree := do
  let start := if isAbsolute path then [] else here
  return (← t.makeDirectories start (names path)).1

/-- Remove a file, if there is one at the path. -/
def remove (t : Tree) (here : Place) (path : String) : Bool × Tree :=
  match t.locate here path with
  | .ok place => (t.isFile place, { t with files := t.files.erase place })
  | .error _ => (false, t)

end Tree

end Templating.Files
