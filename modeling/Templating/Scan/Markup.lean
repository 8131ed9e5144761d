import Templating.Scan.State

/-!
# Following the markup

In template text the scanner watches for the elements of interest. An element
is followed from `<` and its name, attribute by attribute, until the `>` of its
opening tag; one that is not void stays open until a closing tag with its
name. Text that was pending is handed out first, so a hook can write just
before the `>` of an opening tag, just after the opening quote of an attribute,
and just before a closing tag.
-/

namespace Templating.Scan.State

open Templating.Markup

/-- A tag of that name is written where `after` begins, and a blank follows. -/
def opensHere (after : List Char) (name : String) : Bool :=
  name.toList.isPrefixOf after &&
    match after.drop name.toList.length with
    | c :: _ => Text.isAsciiBlank c
    | [] => false

/-- Replace the innermost element. -/
def setElement (s : State) (e : Element) : State :=
  { s with elements := e :: s.elements.tail }

/-- At `<`: begin to follow the element, if it is of interest. -/
def beginElement (s : State) (interest : Interest) (after : List Char) : State :=
  match interest.tags.find? (opensHere after) with
  | some name => { s with elements := { name } :: s.elements, closingTag := false }
  | none => s

/-- At the `/` of `</`: the innermost element ends if its name follows. A void
element has no closing tag of its own. -/
def endElement (s : State) (e : Element) (after : List Char) : State :=
  if e.name.toList.isPrefixOf after then
    let s := { s with closingTag := true }
    if e.isVoid then s
    else { ((s.flush 2).keep 2).emit (.elementClosed e) with elements := s.elements.tail }
  else s

/-- The opening tag ends, `width` characters before the current place. -/
def completeOpening (s : State) (e : Element) (width : Nat) (selfClosing : Bool) : State :=
  let e := { e with opened := true }
  let s := (((s.flush width).keep width).setElement e).emit (.elementOpened e)
  if selfClosing || e.isVoid then { s with elements := s.elements.tail } else s

/-- The name before an `=`, read backwards: blanks, then everything up to a
blank or `<`. -/
def nameBackwards (before : List Char) : List Char :=
  ((before.dropWhile Text.isAsciiBlank).takeWhile
    fun c => !Text.isAsciiBlank c && c != '<').reverse

/-- At `=`: an attribute begins, if a name stands before. -/
def beginAttribute (s : State) (e : Element) : State :=
  match nameBackwards s.before.tail with
  | [] => s
  | name =>
      let attributes := e.attributes ++ [{ name := String.ofList name }]
      s.setElement { e with attributes }

/-- The characters, last one first, that make up the last `n` bytes. -/
def lastBytes (n : Nat) : List Char → List Char
  | [] => []
  | c :: cs => if n = 0 then [] else c :: lastBytes (n - c.utf8Size) cs

/-- The text from the byte offset `start` up to the current character. -/
def textSince (s : State) (start : Nat) : String :=
  match s.before with
  | [] => ""
  | c :: cs => String.ofList (lastBytes (s.position - c.utf8Size - start) cs).reverse

/-- At `"`: the value of the current attribute begins or ends. -/
def quote (s : State) (interest : Interest) (e : Element) : State :=
  match e.current? with
  | none => s
  | some a =>
      match a.value with
      | .awaited =>
          let a := { a with value := .begun, valueStart := s.position }
          let e := e.setCurrent a
          let s := s.setElement e
          if interest.wantsAttribute a.name then
            ((s.flush 0).settle).emit (.attributeBegun e a)
          else s
      | .begun => s.setElement (e.setCurrent { a with value := .whole (s.textSince a.valueStart) })
      | .whole _ => s

/-- At `>` outside a value: the opening tag ends here, or a closing tag that
stood inside it. -/
def endTag (s : State) (e : Element) : State :=
  if s.previous? = some '/' then s.completeOpening e 2 true
  else if s.closingTag then { s with closingTag := false }
  else s.completeOpening e 1 false

/-- Follow the markup over the character `c` of template text. -/
def followMarkup (s : State) (interest : Interest) (c : Char) (after : List Char) : State :=
  if c = '<' then s.beginElement interest after
  else match s.elements with
    | [] => s
    | e :: _ =>
        if c = '/' ∧ s.previous? = some '<' then s.endElement e after
        else if e.opened then s
        else match c with
          | '=' => if e.inValue then s else s.beginAttribute e
          | '"' => s.quote interest e
          | '>' => if e.inValue then s else s.endTag e
          | _ => s

end Templating.Scan.State
