import Templating.SourceUnit

/-!
# Manifests

The manifest says of every unit of a batch which template it comes from, which
files it is in, and how its lines map to the template's. It is written as JSON,
two blanks a level.
-/

namespace Templating.Packaging

/-- How a character stands in a JSON string. -/
def jsonChar (c : Char) : List Char :=
  match c with
  | '"' => ['\\', '"']
  | '\\' => ['\\', '\\']
  | '\x08' => ['\\', 'b']
  | '\x0c' => ['\\', 'f']
  | '\n' => ['\\', 'n']
  | '\r' => ['\\', 'r']
  | '\t' => ['\\', 't']
  | c =>
      if c.toNat < 0x20 then
        ['\\', 'u', '0', '0', Nat.digitChar (c.toNat / 16), Nat.digitChar (c.toNat % 16)]
      else [c]

def jsonText (text : String) : String :=
  "\"" ++ String.ofList (text.toList.flatMap jsonChar) ++ "\""

/-- Items between brackets, a line each, at a depth of nesting. -/
def block (left right : String) (depth : Nat) (items : List String) : String :=
  if items.isEmpty then left ++ right
  else
    let indent (n : Nat) := String.join (List.replicate n "  ")
    left ++ "\n" ++
      String.intercalate ",\n" (items.map fun item => indent (depth + 1) ++ item) ++
      "\n" ++ indent depth ++ right

/-- The members of an object. -/
def jsonObject (depth : Nat) (members : List (String × String)) : String :=
  block "\x7b" "\x7d" depth (members.map fun (key, value) => jsonText key ++ ": " ++ value)

def jsonArray (depth : Nat) (items : List String) : String :=
  block "[" "]" depth items

/-- The target as a manifest names it. -/
def targetName : Target → String
  | .rust => "Rust"
  | .kotlin => "Kotlin"

/-- What the manifest says of one unit. -/
def unitEntry (sourceFile : String) (u : SourceUnit) : String :=
  jsonObject 2 (
    [("identifier", jsonText u.identifier), ("template", jsonText u.template.text),
      ("source_file", jsonText sourceFile)] ++
    (if u.hasBinary then [("binary_file", jsonText u.address.binaryFile)] else []) ++
    [("line_map", jsonArray 3 (u.lineMap.lines.map toString))])

/-- The text of the manifest; `sourceFile` says which file a unit is in. -/
def manifest (target : Target) (sourceFile : SourceUnit → String) (units : List SourceUnit) :
    String :=
  jsonObject 0 [("target", jsonText (targetName target)),
    ("units", jsonArray 1 (units.map fun u => unitEntry (sourceFile u) u))]

end Templating.Packaging
