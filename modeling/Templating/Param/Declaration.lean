import Templating.Param
import Templating.Text.Blank

/-!
# Parameter declarations

A declaration reads `name: Type = default`. Inside angle brackets neither
`=` nor anything else ends the type, and the `>` of an arrow `->` closes no
bracket. Three dots anywhere before the default make the parameter variadic
and belong to neither name nor type. `declaration` writes a parameter in the
same form.
-/

namespace Templating.Param

/-- Why a declaration declares nothing. -/
inductive DeclarationFault where
  | missingName
  | emptyDefault (name : String)
deriving DecidableEq, Repr

def DeclarationFault.message : DeclarationFault → String
  | missingName => "parameter declaration has no name"
  | emptyDefault name => "parameter `" ++ name ++ "` has `=` but no default expression"

/-- Cut at the first `=` outside angle brackets: what stands before it, and
what stands after it if there is one. `depth` counts the open brackets, and
`previous` is the character before. -/
def splitDefault (depth : Nat) (previous : Option Char) :
    List Char → List Char × Option (List Char)
  | [] => ([], none)
  | c :: cs =>
      if c = '=' ∧ depth = 0 then ([], some cs)
      else
        let depth' :=
          if c = '<' then depth + 1
          else if c = '>' ∧ previous ≠ some '-' then depth - 1
          else depth
        let (head, default?) := splitDefault depth' (some c) cs
        (c :: head, default?)

/-- Three dots in a row stand somewhere in the text. -/
def hasEllipsis : List Char → Bool
  | '.' :: '.' :: '.' :: _ => true
  | _ :: cs => hasEllipsis cs
  | [] => false

/-- The text without its ellipses, taken from the left. -/
def dropEllipses : List Char → List Char
  | '.' :: '.' :: '.' :: cs => dropEllipses cs
  | c :: cs => c :: dropEllipses cs
  | [] => []

/-- A name ends at a blank or a colon. -/
def endsName (c : Char) : Bool :=
  Text.isAsciiBlank c || c == ':'

/-- The type in what follows the name. -/
def typeAfterName (cs : List Char) : List Char :=
  let rest := match cs.dropWhile Text.isAsciiBlank with
    | ':' :: rest => rest.dropWhile Text.isAsciiBlank
    | rest => rest
  Text.trim (dropEllipses rest)

/-- Read one declaration. -/
def ofDeclaration (text : String) : Except DeclarationFault Param :=
  let (head, default?) := splitDefault 0 none text.toList
  let body := head.dropWhile Text.isAsciiBlank
  let name := String.ofList (dropEllipses (body.takeWhile fun c => !endsName c))
  let type := String.ofList (typeAfterName (body.dropWhile fun c => !endsName c))
  if name = "" then .error .missingName
  else match default? with
    | none => .ok ⟨name, type, none, hasEllipsis head⟩
    | some expression =>
        match Text.trim expression with
        | [] => .error (.emptyDefault name)
        | trimmed => .ok ⟨name, type, some (String.ofList trimmed), hasEllipsis head⟩

/-- Write the parameter as a declaration. -/
def declaration (p : Param) : String :=
  p.name ++ ": " ++ p.type ++ (if p.variadic then "..." else "") ++
    match p.default? with
    | some expression => " = " ++ expression
    | none => ""

end Templating.Param
