import Templating.Text.Blank
import Templating.Text.Letter

/-!
# Arguments of a call

An argument is positional, or it is named: an identifier, one `=` and a value.
The `=` has to stand outside brackets and strings and must not be part of a
comparison or an arrow.
-/

namespace Templating

inductive Argument where
  | positional (value : String)
  | named (name value : String)
deriving DecidableEq, Repr

namespace Argument

/-- Where a reader of code stands with regard to strings. -/
inductive Quoting where
  | outside
  | inside
  /-- Inside, after a backslash. -/
  | escaping
deriving DecidableEq, Repr

/-- How the character `c` changes that. -/
def Quoting.after (q : Quoting) (c : Char) : Quoting :=
  match q with
  | outside => if c = '"' then inside else outside
  | inside => if c = '\\' then escaping else if c = '"' then outside else inside
  | escaping => inside

def opensBracket (c : Char) : Bool :=
  c == '(' || c == '[' || c == '{'

def closesBracket (c : Char) : Bool :=
  c == ')' || c == ']' || c == '}'

/-- An `=` between these two characters is part of another operator. -/
def isOperator (previous next : Option Char) : Bool :=
  previous == some '=' || previous == some '!' || previous == some '<' || previous == some '>' ||
  next == some '=' || next == some '>'

/-- Cut at the first `=` that assigns: what stands before and after it. `depth`
counts the open brackets, and `previous` is the character before. -/
def splitAssignment (depth : Nat) (q : Quoting) (previous : Option Char) :
    List Char → Option (List Char × List Char)
  | [] => none
  | c :: cs =>
      if c = '=' ∧ depth = 0 ∧ q = .outside ∧ !isOperator previous cs.head? then some ([], cs)
      else
        let depth' :=
          if q ≠ .outside then depth
          else if opensBracket c then depth + 1
          else if closesBracket c then depth - 1
          else depth
        (splitAssignment depth' (q.after c) (some c) cs).map fun (left, right) => (c :: left, right)

/-- Read an argument as it is written in a call. -/
def classify (raw : String) : Argument :=
  let raw := Text.trim raw.toList
  match splitAssignment 0 .outside none raw with
  | none => positional (String.ofList raw)
  | some (left, right) =>
      let name := Text.trim left
      if Text.isIdentifier name then
        named (String.ofList name) (String.ofList (Text.trim right))
      else positional (String.ofList raw)

def isPositional : Argument → Bool
  | positional _ => true
  | named .. => false

end Argument

end Templating
