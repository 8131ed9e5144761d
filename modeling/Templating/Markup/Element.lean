import Templating.Text.Blank

/-!
# Elements of the surrounding markup

Templates are written around markup. Where some tags are of interest, the
scanner follows their opening tags attribute by attribute. An element is what
it knows of one such tag at some moment.
-/

namespace Templating.Markup

/-- Elements without content, which are never closed. -/
def voidElements : List String :=
  ["area", "base", "br", "col", "command", "embed", "hr", "img", "input", "keygen", "link",
    "meta", "param", "source", "track", "wbr"]

def isVoid (name : String) : Bool :=
  voidElements.contains name

/-- The tags and attributes that are looked for. -/
structure Interest where
  tags : List String := []
  attributes : List String := []
deriving DecidableEq, Repr, Inhabited

namespace Interest

/-- Without a tag there is nothing to look in. -/
def isEmpty (i : Interest) : Bool :=
  i.tags.isEmpty

def wantsAttribute (i : Interest) (name : String) : Bool :=
  i.attributes.contains name

/-- The interest, unless it is empty. -/
def active? : Option Interest → Option Interest
  | some i => if i.isEmpty then none else some i
  | none => none

end Interest

/-- How much of an attribute's value has been seen. -/
inductive Value where
  /-- No quote yet. -/
  | awaited
  /-- The opening quote. -/
  | begun
  /-- Both quotes, with the text between them. -/
  | whole (text : String)
deriving DecidableEq, Repr

structure Attribute where
  name : String
  value : Value := .awaited
  /-- The byte offset at which the value starts, once it is known. -/
  valueStart : Nat := 0
deriving DecidableEq, Repr

namespace Attribute

/-- How many quotes have been seen. -/
def quoteCount (a : Attribute) : Nat :=
  match a.value with
  | .awaited => 0
  | .begun => 1
  | .whole _ => 2

def text? (a : Attribute) : Option String :=
  match a.value with
  | .whole text => some text
  | _ => none

end Attribute

structure Element where
  name : String
  attributes : List Attribute := []
  /-- The opening tag is complete. -/
  opened : Bool := false
deriving DecidableEq, Repr

namespace Element

def isVoid (e : Element) : Bool :=
  Markup.isVoid e.name

/-- The first attribute of that name. -/
def attribute? (e : Element) (name : String) : Option Attribute :=
  e.attributes.find? fun a => a.name == name

/-- The attribute being read, which is the last one begun. -/
def current? (e : Element) : Option Attribute :=
  e.attributes.getLast?

def setCurrent (e : Element) (a : Attribute) : Element :=
  { e with attributes := e.attributes.dropLast ++ [a] }

/-- The element is in the middle of a quoted value. -/
def inValue (e : Element) : Bool :=
  match e.current? with
  | some a => a.value == .begun
  | none => false

end Element

end Templating.Markup
