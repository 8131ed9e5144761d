import Templating.Scan.Fault

/-!
# The state of a scan

A scan reads a template from left to right, once. What has been read is kept
last character first, and so is `pending`, the part at its end that no event
has quoted or dropped yet. The stack holds the constructs around the current
place, innermost first; below it lies the content of the template itself, so
an empty stack means text.
-/

namespace Templating.Scan

/-- What the reading of a template depends on. -/
structure Setting where
  kind : Kind := .page
  interest? : Option Markup.Interest := none

structure State where
  /-- Everything read, last character first. -/
  before : List Char := []
  /-- The end of `before` that is still to be handed out. -/
  pending : List Char := []
  /-- How many bytes have been read. -/
  position : Nat := 0
  line : Nat := 1
  depth : Nat := 0
  stack : List Frame := []
  /-- The elements of interest that are open, innermost first. -/
  elements : List Markup.Element := []
  /-- A closing tag has begun whose `>` has not been met. -/
  closingTag : Bool := false
  /-- The header of declarations is over. -/
  headerOver : Bool := false
  /-- What has been said so far, last signal first. -/
  said : List Signal := []

namespace State

/-! ## The stack -/

def top (s : State) : Construct :=
  match s.stack with
  | [] => .text
  | frame :: _ => frame.construct

/-- Begin a construct. Entering text goes one level deeper. -/
def push (s : State) (c : Construct) : State :=
  { s with
    stack := ⟨c, s.line⟩ :: s.stack
    depth := if c = .text then s.depth + 1 else s.depth }

/-- End the innermost construct. The content of the template itself does not
end. -/
def pop (s : State) : State :=
  match s.stack with
  | [] => s
  | frame :: rest =>
      { s with
        stack := rest
        depth := if frame.construct = .text then s.depth - 1 else s.depth }

/-- Go on with another construct in place of the innermost one, begun on the
same line. -/
def become (s : State) (c : Construct) : State :=
  match s.stack with
  | [] => s
  | frame :: rest => { s with stack := { frame with construct := c } :: rest }

/-- The current text lies directly inside a construct of that sort. -/
def inTextOf (s : State) (sort : Construct → Bool) : Bool :=
  match s.stack with
  | frame :: opener :: _ => frame.construct == .text && sort opener.construct
  | _ => false

/-! ## Saying things -/

def signal (s : State) (x : Signal) : State :=
  { s with said := x :: s.said }

/-- Say what was found. The first event that does not belong to the header
is preceded by the end of the header. -/
def emit (s : State) (body : Event.Body) : State :=
  let here (b : Event.Body) : Signal := .event ⟨s.line, s.depth, b⟩
  if s.headerOver || body.isHeader then s.signal (here body)
  else { s.signal (here .headerEnd) with headerOver := true }.signal (here body)

def report (s : State) (fault : Fault) : State :=
  s.signal (.problem ⟨s.line, fault⟩)

/-- A closing word without its opening one. -/
def reportUnbalanced (s : State) (closing : Directive) (opening : String) : State :=
  s.report (.unbalanced closing.word opening)

/-! ## The pending text -/

/-- Read one character. -/
def advance (s : State) (c : Char) : State :=
  { s with
    before := c :: s.before
    pending := c :: s.pending
    position := s.position + c.utf8Size }

/-- The character before the one just read. -/
def previous? (s : State) : Option Char :=
  match s.before with
  | _ :: c :: _ => some c
  | _ => none

/-- The pending text without its last `n` characters. -/
def slice (s : State) (n : Nat) : Text.Slice :=
  Text.Slice.endingAt (s.position - Text.byteSize (s.before.take n)) (s.pending.drop n)

/-- Let go of the pending text but for its last `n` characters. -/
def keep (s : State) (n : Nat) : State :=
  { s with pending := s.pending.take n }

/-- Let go of the pending text. -/
def settle (s : State) : State :=
  s.keep 0

/-- In text, hand out the pending text without its last `n` characters, if
anything is left of it. -/
def flush (s : State) (n : Nat) : State :=
  if s.top = .text ∧ s.pending.drop n ≠ [] then s.emit (.text (s.slice n)) else s

end State

end Templating.Scan
