import Templating.Proofs.Param.Bytes
import Templating.Proofs.Scan.Invariant

/-!
# Reading bytes

The scanner as a reader of bytes. It knows its place as a byte offset and keeps
a few offsets from earlier places; what it quotes it cuts from the source between
two of them, and it looks back and ahead by the numbers of bytes. Whatever could go
wrong in this is checked: slices are cut between characters, bytes that are looked
at are there, constructs that end have begun, and nothing is taken from zero. If
anything goes wrong the result is `none`.
-/

namespace Templating.Scan

open Text (Slice octets cut? minus? firstBytes? restBytes? byteBefore? backOver?)

/-- Look ahead for the `>` that closes an angle bracket, with `depth` brackets and
`nested` parentheses open. -/
def closesAngle? (depth nested : Nat) (previous : Char) : List Char → Option Bool
  | [] => some false
  | c :: cs =>
      if c = '<' then closesAngle? (depth + 1) nested c cs
      else if c = '>' ∧ previous ≠ '-' ∧ previous ≠ '=' then
        (minus? depth 1).bind fun depth =>
          if depth = 0 then some true else closesAngle? depth nested c cs
      else if c = '(' ∨ c = '[' then closesAngle? depth (nested + 1) c cs
      else if c = ')' ∨ c = ']' then
        if nested = 0 then some false
        else (minus? nested 1).bind fun nested => closesAngle? depth nested c cs
      else if (c = '&' ∨ c = '|') ∧ previous = c then some false
      else if c = '"' ∨ c = ';' ∨ c = '{' ∨ c = '}' ∨ c = '\n' then some false
      else closesAngle? depth nested c cs

/-- The state of a reader of bytes. -/
structure Cursor where
  /-- What the scanner knows apart from the text it has read. -/
  state : State := {}
  /-- The bytes before this offset have been handed out or dropped. -/
  last : Nat := 0
  /-- Where the name of a call or its current argument starts, for each open
  construct, innermost first. Only calls have a use for theirs. -/
  starts : List Nat := []

namespace Cursor

/-! ## Primitives -/

section Primitives

variable (u : Cursor)

def top : Construct :=
  u.state.top

def say (body : Event.Body) : Cursor :=
  { u with state := u.state.emit body }

def report (fault : Fault) : Cursor :=
  { u with state := u.state.report fault }

def reportUnbalanced (closing : Directive) (opening : String) : Cursor :=
  { u with state := u.state.reportUnbalanced closing opening }

/-- The bytes before the offset have been dealt with. -/
def settle (offset : Nat) : Cursor :=
  { u with last := offset }

/-- Begin a construct that has no start of its own. -/
def push (k : Construct) : Cursor :=
  { u with state := u.state.push k, starts := 0 :: u.starts }

/-- Begin a call whose name starts at the offset. -/
def pushCall (kind : CallKind) (start : Nat) : Cursor :=
  { u with state := u.state.push (.reference kind), starts := start :: u.starts }

/-- End the innermost construct. The content of the template itself does not end,
and a text has added to the depth. -/
def pop? : Option Cursor :=
  if u.state.stack = [] ∨ u.top = .text ∧ u.state.depth = 0 then none
  else some { u with state := u.state.pop, starts := u.starts.tail }

def become (k : Construct) : Cursor :=
  { u with state := u.state.become k }

/-- Go on with the arguments of a call, the next one starting at the offset. -/
def restart (k : Construct) (start : Nat) : Cursor :=
  { u with state := u.state.become k, starts := start :: u.starts.tail }

/-- In text, hand out what lies between `last` and the offset, if anything does. -/
def flush? (source : List Char) (stop : Nat) : Option Cursor :=
  if u.top = .text ∧ u.last < stop then
    (cut? source u.last stop).map fun text => u.say (.text text)
  else some u

/-- Hand out the text up to the offset, and go on from there. -/
def handOut? (source : List Char) (stop : Nat) : Option Cursor := do
  let u ← u.flush? source stop
  some (u.settle stop)

/-- Hand out the text before a directive of that width that ends with the byte
`i`. -/
def release? (source : List Char) (i width : Nat) : Option Cursor := do
  let stop ← minus? (i + 1) width
  let u ← u.flush? source stop
  some (u.settle (i + 1))

/-- The same, and end the text. -/
def leaveText? (source : List Char) (i width : Nat) : Option Cursor := do
  let u ← u.release? source i width
  u.pop?

end Primitives

/-! ## Code -/

section Code

variable (u : Cursor) (source : List Char) (i : Nat)

def endCode? (body : Slice → Event.Body) : Option Cursor := do
  let u ← u.pop?
  let code ← cut? source u.last i
  let u := u.settle (i + 1)
  some (if u.top = .text then u.say (body code) else u)

def closeBrace? : Option Cursor :=
  match u.top with
  | .block => u.pop?
  | .expression escaping => u.endCode? source i (.expression escaping)
  | .statement => u.endCode? source i .statement
  | _ => some u

def closeHeader? (body : Slice → Event.Body) : Option Cursor := do
  let header ← cut? source u.last i
  some (((u.settle (i + 1)).say (body header)).push .text)

def lastArgument? : Option (List Slice) := do
  let start ← u.starts.head?
  let argument ← cut? source start i
  some (if argument.trim.text = "" then [] else [argument.trim])

def closeCall? (call : PendingCall) : Option Cursor := do
  let argument ← u.lastArgument? source i
  let u ← u.pop?
  let u := (u.settle (i + 1)).say (.call call.kind call.reference (call.arguments ++ argument))
  match call.kind with
  | .tag => some u
  | .layout => some (u.push .layoutBody)

def closeParenthesis? : Option Cursor :=
  match u.top with
  | .parentheses => do
      let u ← u.pop?
      match u.top with
      | .condition => u.closeHeader? source i .conditionBegin
      | .conditionElseIf => u.closeHeader? source i .conditionElseIf
      | _ => some u
  | .loopHeader => do
      let u ← u.pop?
      if u.top = .loop then u.closeHeader? source i .loopBegin else some u
  | .arguments call _ => u.closeCall? source i call
  | _ => some u

def openParenthesis : Cursor :=
  match u.top with
  | .parentheses | .arguments .. => u.push .parentheses
  | .loopHeader => u.push .loopHeader
  | _ => u

def splitArgument? : Option Cursor :=
  match u.top with
  | .arguments call 0 => do
      let argument ← u.lastArgument? source i
      some (u.restart (.arguments { call with arguments := call.arguments ++ argument } 0) (i + 1))
  | _ => some u

/-- Two colons stand before the `<`, or its `>` can be found. -/
def opensGeneric? : Option Bool := do
  let before ← firstBytes? (octets source) i
  if [':', ':'].isSuffixOf before then some true
  else do
    let after ← restBytes? (octets source) (i + 1)
    closesAngle? 1 0 '<' after

def openAngle? : Option Cursor := do
  let previous? ← byteBefore? (octets source) i
  let opens ← opensGeneric? source i
  match u.top with
  | .arguments call angles =>
      let afterName := previous?.any endsPath
      let spaced := (octets source)[i + 1]?.all fun c => Text.isAsciiBlank c || c == '='
      some (if afterName && !spaced && opens then u.become (.arguments call (angles + 1)) else u)
  | _ => some u

def closeAngle? : Option Cursor := do
  let previous? ← byteBefore? (octets source) i
  match u.top with
  | .arguments call angles =>
      if 0 < angles ∧ previous? ≠ some '-' ∧ previous? ≠ some '=' then do
        let angles ← minus? angles 1
        some (u.become (.arguments call angles))
      else some u
  | _ => some u

def readCode? (c : Char) : Option Cursor :=
  match c with
  | '"' => some (u.push (.string false))
  | '{' => some (u.push .block)
  | '}' => u.closeBrace? source i
  | '(' => some u.openParenthesis
  | ')' => u.closeParenthesis? source i
  | ',' => u.splitArgument? source i
  | '<' => u.openAngle? source i
  | '>' => u.closeAngle? source i
  | _ => some u

def readString? (c : Char) (escaping : Bool) : Option Cursor :=
  if escaping then some (u.become (.string false))
  else match c with
    | '\\' => some (u.become (.string true))
    | '"' => u.pop?
    | _ => some u

end Code

/-! ## Directives -/

section Directives

variable (u : Cursor) (source : List Char) (i : Nat)

/-- The directive that ends with the byte `i`. Only here one more byte is looked
at, and it need not be there. -/
def directive? : Option (Option Directive) := do
  let read ← firstBytes? (octets source) (i + 1)
  some <| match Directive.all.find? fun d => d.word.toList.isSuffixOf read with
    | some .conditionElse =>
        if (octets source)[i + 1]? = some 'i' then none else some .conditionElse
    | found? => found?

/-- Hand out what comes before a declaration, unless it is blank and in the header.
That nothing lies between `last` and the declaration is not an error. -/
def flushContent? (start : Nat) : Option Cursor :=
  let pending := ((cut? source u.last start).map Slice.text).getD ""
  if u.state.headerOver || !(Text.trim pending.toList).isEmpty then u.flush? source start
  else some u

def beginDeclaration? (width : Nat) (k : Construct) : Option Cursor := do
  let start ← minus? (i + 1) width
  let u ← u.flushContent? source start
  some ((u.settle (i + 1)).push k)

/-- A declaration ends at the offset, which may be the end of the input. -/
def endDeclaration? (stop : Nat) : Option Cursor := do
  let isParam := u.top = .param
  let text ← cut? source u.last stop
  let u ← u.pop?
  let u := u.settle (min (stop + 1) (octets source).length)
  if u.state.headerOver then
    some (u.report
      (.misplaced (if isParam then Directive.param.word else Directive.imported.word)))
  else if isParam then do
    let declared ← Param.ofDeclaration? text.trim.text
    some <| match declared with
      | .ok p => u.say (.param text.trim p)
      | .error fault => u.report (.declaration fault)
  else some (u.say (.imported text.trim))

def begin? (width : Nat) (k : Construct) : Option Cursor := do
  let u ← u.release? source i width
  some (u.push k)

def conditionElse? (width : Nat) : Option Cursor :=
  if u.state.inTextOf Construct.isCondition then do
    let u ← u.leaveText? source i width
    some ((u.say .conditionElse).push .text)
  else some (u.reportUnbalanced .conditionElse Directive.conditionBegin.word)

def conditionElseIf? (width : Nat) : Option Cursor :=
  if u.state.inTextOf Construct.isCondition then do
    let u ← u.leaveText? source i width
    let u ← u.pop?
    some (u.push .conditionElseIf)
  else some (u.reportUnbalanced .conditionElseIf Directive.conditionBegin.word)

def endBlock? (closing opening : Directive) (sort : Construct → Bool) (body : Event.Body) :
    Option Cursor :=
  if u.state.inTextOf sort then do
    let u ← u.leaveText? source i closing.width
    (u.say body).pop?
  else some (u.reportUnbalanced closing opening.word)

def beginCall? (width : Nat) (kind : CallKind) : Option Cursor := do
  let u ← u.release? source i width
  some (u.pushCall kind (i + 1))

def beginArguments? (kind : CallKind) : Option Cursor := do
  let start ← u.starts.head?
  let name ← cut? source start i
  let reference := name.text.toList.filter fun c => !Text.isBlank c
  let u := if reference.isEmpty then u.report (.namelessCall kind) else u
  some ((u.settle (i + 1)).restart (.arguments { kind, reference := String.ofList reference } 0)
    (i + 1))

def endLayout? : Option Cursor :=
  if u.top = .layoutBody then do
    let u ← u.pop?
    some ((u.settle (i + 1)).say .layoutEnd)
  else some (u.reportUnbalanced .layoutEnd CallKind.layout.word)

def beginSlot : Cursor :=
  if u.top = .layoutBody then (u.settle (i + 1)).push .slot else u.report .slotOutsideCall

def beginSlotText? : Option Cursor := do
  let slot ← cut? source u.last i
  let u := ((u.settle (i + 1)).say (.slotBegin slot.trim)).push .text
  some { u with state := { u.state with depth := u.state.depth + 2 } }

def endSlot? (width : Nat) : Option Cursor :=
  if u.state.inTextOf (· == .slot) then do
    let u ← u.leaveText? source i width
    let u ← u.pop?
    let depth ← minus? u.state.depth 2
    some ({ u with state := { u.state with depth } }.say .slotEnd)
  else some (u.reportUnbalanced .slotEnd Directive.slotBegin.word)

def endRender? (kind : Kind) : Option Cursor := do
  let slot ← cut? source u.last i
  let u ← (u.settle (i + 1)).pop?
  some (if kind = .layout then u.say (.render slot.trim)
    else u.report (.renderOutsideLayout slot.trim.text))

/-- A comment begins. It is dealt with when it ends. -/
def beginComment? (width : Nat) : Option Cursor := do
  let stop ← minus? (i + 1) width
  let u ← u.flush? source stop
  some (u.push .comment)

def obey? (d : Directive) : Option Cursor :=
  match d with
  | .comment => u.beginComment? source i d.width
  | .imported => u.beginDeclaration? source i d.width .imported
  | .param => u.beginDeclaration? source i d.width .param
  | .expression escaping => u.begin? source i d.width (.expression escaping)
  | .statement => u.begin? source i d.width .statement
  | .conditionBegin => u.begin? source i d.width .condition
  | .conditionElse => u.conditionElse? source i d.width
  | .conditionElseIf => u.conditionElseIf? source i d.width
  | .conditionEnd =>
      u.endBlock? source i d .conditionBegin Construct.isCondition .conditionEnd
  | .loopBegin => u.begin? source i d.width .loop
  | .loopEnd => u.endBlock? source i d .loopBegin (· == .loop) .loopEnd
  | .call kind => u.beginCall? source i d.width kind
  | .layoutEnd => u.endLayout? i
  | .slotBegin => some (u.beginSlot i)
  | .slotEnd => u.endSlot? source i d.width
  | .render => u.begin? source i d.width .render

def parenthesisBegins : Cursor :=
  match u.top with
  | .condition | .conditionElseIf => (u.settle (i + 1)).push .parentheses
  | .loop => (u.settle (i + 1)).push .loopHeader
  | .slot | .render => u.settle (i + 1)
  | _ => u

def parenthesisEnds? (kind : Kind) : Option Cursor :=
  match u.top with
  | .slot => u.beginSlotText? source i
  | .render => u.endRender? source i kind
  | _ => some u

end Directives

/-! ## Markup -/

section Markup

open Templating.Markup

variable (u : Cursor) (source : List Char) (i : Nat)

/-- The bytes begin with those of the name, and a blank follows. -/
def opensTag (bytes : List Char) (name : String) : Bool :=
  (octets name.toList).isPrefixOf bytes &&
    bytes[(octets name.toList).length]?.any Text.isAsciiBlank

def setElement (e : Element) : Cursor :=
  { u with state := u.state.setElement e }

def setMarkup (elements : List Element) (closingTag : Bool) : Cursor :=
  { u with state := { u.state with elements, closingTag } }

/-- The innermost element is no longer followed. -/
def dropElement : Cursor :=
  u.setMarkup u.state.elements.tail u.state.closingTag

def beginElement? (interest : Interest) : Option Cursor := do
  let rest ← restBytes? (octets source) (i + 1)
  some <| match interest.tags.find? (opensTag rest) with
    | some name => u.setMarkup ({ name } :: u.state.elements) false
    | none => u

def endElement? (e : Element) : Option Cursor := do
  let rest ← restBytes? (octets source) (i + 1)
  if (octets e.name.toList).isPrefixOf rest then
    let u := u.setMarkup u.state.elements true
    if e.isVoid then some u
    else do
      let stop ← minus? i 1
      let u ← u.handOut? source stop
      some (u.say (.elementClosed e)).dropElement
  else some u

/-- The opening tag ends at the offset. -/
def completeOpening? (e : Element) (stop : Nat) (selfClosing : Bool) : Option Cursor := do
  let e := { e with opened := true }
  let u ← u.handOut? source stop
  let u := (u.setElement e).say (.elementOpened e)
  some (if selfClosing || e.isVoid then u.dropElement else u)

/-- The name before the `=`, found by going back over blanks and then over
everything up to a blank or `<`. -/
def beginAttribute? (e : Element) : Option Cursor := do
  let stop ← backOver? Text.isAsciiBlank (octets source) i
  let start ← backOver? (fun c => !Text.isAsciiBlank c && c != '<') (octets source) stop
  if start = stop then some u
  else do
    let name ← cut? source start stop
    some (u.setElement { e with attributes := e.attributes ++ [{ name := name.text }] })

def quote? (interest : Interest) (e : Element) : Option Cursor :=
  match e.current? with
  | none => some u
  | some a =>
      match a.value with
      | .awaited =>
          let a := { a with value := .begun, valueStart := i + 1 }
          let e := e.setCurrent a
          let u := u.setElement e
          if interest.wantsAttribute a.name then do
            let u ← u.handOut? source (i + 1)
            some (u.say (.attributeBegun e a))
          else some u
      | .begun => do
          let value ← cut? source a.valueStart i
          some (u.setElement (e.setCurrent { a with value := .whole value.text }))
      | .whole _ => some u

def endTag? (e : Element) (previous? : Option Char) : Option Cursor :=
  if previous? = some '/' then do
    let stop ← minus? i 1
    u.completeOpening? source e stop true
  else if u.state.closingTag then some (u.setMarkup u.state.elements false)
  else u.completeOpening? source e i false

def followMarkup? (interest : Interest) (c : Char) : Option Cursor :=
  if c = '<' then u.beginElement? source i interest
  else match u.state.elements with
    | [] => some u
    | e :: _ => do
        let previous? ← byteBefore? (octets source) i
        if c = '/' ∧ previous? = some '<' then u.endElement? source i e
        else if e.opened then some u
        else match c with
          | '=' => if e.inValue then some u else u.beginAttribute? source i e
          | '"' => u.quote? source i interest e
          | '>' => if e.inValue then some u else u.endTag? source i e previous?
          | _ => some u

end Markup

/-! ## One byte, and all of them -/

section Run

variable (u : Cursor) (setting : Setting) (source : List Char) (i : Nat)

def readText? (c : Char) : Option Cursor := do
  let found? ← directive? source i
  match found? with
  | some d => u.obey? source i d
  | none =>
      match c, u.top, Markup.Interest.active? setting.interest? with
      | '(', _, _ => some (u.parenthesisBegins i)
      | ')', _, _ => u.parenthesisEnds? source i setting.kind
      | _, .text, some interest => u.followMarkup? source i interest c
      | _, _, _ => some u

/-- A comment ends with the bytes that end it. -/
def readComment? : Option Cursor := do
  let read ← firstBytes? (octets source) (i + 1)
  if ['-', '-', '%', '>'].isSuffixOf read then do
    let u ← u.pop?
    some (u.settle (i + 1))
  else some u

/-- Read the byte `c`, which is the one at `i`. -/
def readByte? (c : Char) : Option Cursor :=
  match u.top with
  | .comment => u.readComment? source i
  | .string escaping => u.readString? c escaping
  | .imported | .param => if c = '\n' then u.endDeclaration? source i else some u
  | .reference kind => if c = '(' then u.beginArguments? source i kind else some u
  | .expression _ | .statement | .block | .parentheses | .loopHeader | .arguments .. =>
      u.readCode? source i c
  | .text | .condition | .conditionElseIf | .loop | .layoutBody | .slot | .render =>
      u.readText? setting source i c

def step? (c : Char) : Option Cursor := do
  let u ← u.readByte? setting source i c
  some { u with state := u.state.endLine c }

/-- Read the bytes from `i` on. -/
def run? (setting : Setting) (source : List Char) : Cursor → Nat → List Char → Option Cursor
  | u, _, [] => some u
  | u, i, c :: cs => do
      let u ← u.step? setting source i c
      run? setting source u (i + 1) cs

/-- A declaration may end with the input. -/
def closeDeclaration? : Option Cursor :=
  if u.top = .imported ∨ u.top = .param then u.endDeclaration? source (octets source).length
  else some u

def finish? : Option Cursor := do
  let u ← u.closeDeclaration? source
  let u ← u.flush? source (octets source).length
  let u := u.settle (octets source).length
  let u := match u.state.unfinished? with
    | some problem => { u with state := u.state.signal (.problem problem) }
    | none => u
  some (u.say .complete)

/-- Everything there is to say about a template, if nothing goes wrong. -/
def signals? (setting : Setting) (source : List Char) : Option (List Signal) := do
  let u ← run? setting source {} 0 (octets source)
  let u ← u.finish? source
  some u.state.said.reverse

end Run

end Cursor

end Templating.Scan
