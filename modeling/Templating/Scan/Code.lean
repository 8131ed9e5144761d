import Templating.Scan.State

/-!
# Inside code

Code of the target language stands in braces, in parentheses, and in the
arguments of calls. The scanner only needs to know where it ends, so it keeps
track of brackets and strings. In arguments it also splits at commas; commas
inside angle brackets do not split, which takes telling type arguments from
comparisons.
-/

namespace Templating.Scan

/-- Look ahead for the `>` that closes an angle bracket. `deeper` brackets were
opened after it, `nested` parentheses or square brackets are open, and
`previous` is the character before. Whatever cannot stand inside type arguments
ends the search. -/
def closesAngle (deeper nested : Nat) (previous : Char) : List Char → Bool
  | [] => false
  | c :: cs =>
      if c = '<' then closesAngle (deeper + 1) nested c cs
      else if c = '>' ∧ previous ≠ '-' ∧ previous ≠ '=' then
        if deeper = 0 then true else closesAngle (deeper - 1) nested c cs
      else if c = '(' ∨ c = '[' then closesAngle deeper (nested + 1) c cs
      else if c = ')' ∨ c = ']' then
        if nested = 0 then false else closesAngle deeper (nested - 1) c cs
      else if (c = '&' ∨ c = '|') ∧ previous = c then false
      else if c = '"' ∨ c = ';' ∨ c = '{' ∨ c = '}' ∨ c = '\n' then false
      else closesAngle deeper nested c cs

/-- Characters that a name, or a path of names, may end with. -/
def endsPath (c : Char) : Bool :=
  c.isAlphanum || c == '_' || c == ':'

/-- A `<` between `before` (last character first) and `after` opens type
arguments: it follows a name directly, no blank or `=` follows it, and either
two colons stand before it or its `>` can be found. -/
def opensAngle (before after : List Char) : Bool :=
  (match before with
    | c :: _ => endsPath c
    | [] => false) &&
  (match after with
    | c :: _ => !Text.isAsciiBlank c && c != '='
    | [] => false) &&
  ([':', ':'].isPrefixOf before || closesAngle 0 0 '<' after)

namespace State

/-- At `}`: a block ends, or the whole code does. Code that stands directly in
something other than text is dropped. -/
def closeBrace (s : State) : State :=
  let finish (body : Text.Slice → Event.Body) : State :=
    let code := s.slice 1
    let s := s.pop.settle
    if s.top = .text then s.emit (body code) else s
  match s.top with
  | .block => s.pop
  | .expression escaping => finish (.expression escaping)
  | .statement => finish .statement
  | _ => s

/-- A header has been read up to its closing parenthesis: say so and go on with
the text it governs. -/
def closeHeader (s : State) (body : Text.Slice → Event.Body) : State :=
  (s.settle.emit (body (s.slice 1))).push .text

/-- The current argument, unless it is blank. -/
def lastArgument (s : State) : List Text.Slice :=
  let argument := (s.slice 1).trim
  if argument.text = "" then [] else [argument]

/-- At the `)` of a call. -/
def closeCall (s : State) (call : PendingCall) : State :=
  let body := Event.Body.call call.kind call.reference (call.arguments ++ s.lastArgument)
  let s := s.pop.settle.emit body
  match call.kind with
  | .tag => s
  | .layout => s.push .layoutBody

/-- At `)`. -/
def closeParenthesis (s : State) : State :=
  match s.top with
  | .parentheses =>
      let s := s.pop
      match s.top with
      | .condition => s.closeHeader .conditionBegin
      | .conditionElseIf => s.closeHeader .conditionElseIf
      | _ => s
  | .loopHeader =>
      let s := s.pop
      if s.top = .loop then s.closeHeader .loopBegin else s
  | .arguments call _ => s.closeCall call
  | _ => s

/-- At `(`. Parentheses count only where their balance decides what ends. -/
def openParenthesis (s : State) : State :=
  match s.top with
  | .parentheses | .arguments .. => s.push .parentheses
  | .loopHeader => s.push .loopHeader
  | _ => s

/-- At `,`: the next argument begins, unless angle brackets are open. -/
def splitArgument (s : State) : State :=
  match s.top with
  | .arguments call 0 =>
      (s.become (.arguments { call with arguments := call.arguments ++ s.lastArgument } 0)).settle
  | _ => s

/-- At `<` in arguments. -/
def openAngle (s : State) (after : List Char) : State :=
  match s.top with
  | .arguments call angles =>
      if opensAngle s.before.tail after then s.become (.arguments call (angles + 1)) else s
  | _ => s

/-- At `>` in arguments. The `>` of `->` and `=>` closes nothing. -/
def closeAngle (s : State) : State :=
  match s.top with
  | .arguments call angles =>
      if s.previous? = some '-' ∨ s.previous? = some '=' then s
      else s.become (.arguments call (angles - 1))
  | _ => s

/-- Read the character `c` of code. -/
def readCode (s : State) (c : Char) (after : List Char) : State :=
  match c with
  | '"' => s.push (.string false)
  | '{' => s.push .block
  | '}' => s.closeBrace
  | '(' => s.openParenthesis
  | ')' => s.closeParenthesis
  | ',' => s.splitArgument
  | '<' => s.openAngle after
  | '>' => s.closeAngle
  | _ => s

/-- Read the character `c` of a string in code. -/
def readString (s : State) (c : Char) (escaping : Bool) : State :=
  if escaping then s.become (.string false)
  else match c with
    | '\\' => s.become (.string true)
    | '"' => s.pop
    | _ => s

end State

end Templating.Scan
