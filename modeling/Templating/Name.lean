import Templating.Target
import Templating.Text.Pieces
import Templating.Text.Quoted

/-!
# Template names

A template is named by a path such as `page.stn` or `tag/forms/input.stn`.
The directory it starts with says what the template is used as, the extension
says what it compiles to. A call in a template gives a dotted reference;
`Name.ofCall` turns that into a name of the right kind.
-/

namespace Templating

/-- What a template is used as. -/
inductive Kind where
  | page
  | tag
  | layout
deriving DecidableEq, Repr

/-- What a call in a template refers to. -/
inductive CallKind where
  | tag
  | layout
deriving DecidableEq, Repr

structure Name where
  text : String
deriving DecidableEq, Repr, Inhabited

namespace Name

/-- Names are ordered by their text, code point by code point. -/
def precedes (a b : Name) : Bool :=
  decide (a.text ≤ b.text)

/-- The names in order. -/
def sort (names : List Name) : List Name :=
  names.mergeSort precedes

def tagDirectory : String := "tag/"

def layoutDirectory : String := "layout/"

/-- The kind that the name's directory gives it. -/
def kind (n : Name) : Kind :=
  if tagDirectory.toList.isPrefixOf n.text.toList then .tag
  else if layoutDirectory.toList.isPrefixOf n.text.toList then .layout
  else .page

/-- The characters of the last path segment. -/
def fileChars (n : Name) : List Char :=
  match Text.splitLast '/' n.text.toList with
  | some (_, file) => file
  | none => n.text.toList

/-- The last path segment. -/
def fileName (n : Name) : String :=
  String.ofList n.fileChars

/-- What follows the last dot of the file name, if it has one. -/
def extension? (n : Name) : Option String :=
  (Text.splitLast '.' n.fileChars).map fun parts => String.ofList parts.2

/-- The file name without its extension. -/
def stem (n : Name) : String :=
  match Text.splitLast '.' n.fileChars with
  | some (stem, _) => String.ofList stem
  | none => n.fileName

/-- The directory segments, outermost first; empty segments do not count. -/
def directories (n : Name) : List String :=
  match Text.splitLast '/' n.text.toList with
  | some (path, _) =>
      ((Text.pieces '/' path).filter fun segment => !segment.isEmpty).map String.ofList
  | none => []

/-- What the template compiles to. -/
def target (n : Name) : Target :=
  match n.extension? with
  | some extension => Target.ofExtension extension
  | none => .rust

/-- The name that the dotted reference `dotted` stands for. Dots become path
separators, below the directory of the kind that is called; pages are called
as tags are. -/
def ofReference (kind : Kind) (dotted extension : String) : Name :=
  let directory := match kind with
    | .layout => layoutDirectory
    | .tag | .page => tagDirectory
  let path := dotted.toList.map fun c => if c = '.' then '/' else c
  ⟨directory ++ String.ofList path ++ "." ++ extension⟩

/-- The name that a call in the template `caller` refers to. The callee has
the caller's extension. -/
def ofCall (caller : Name) (kind : CallKind) (dotted : String) : Name :=
  let called := match kind with
    | .tag => Kind.tag
    | .layout => Kind.layout
  ofReference called dotted (caller.extension?.getD Target.rust.templateExtension)

/-- The name as it is shown in a dump. -/
def shown (n : Name) : String :=
  "TemplateName(" ++ Text.quoted n.text ++ ")"

end Name

end Templating
