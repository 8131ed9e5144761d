import Templating.Target

/-!
# Text in string literals

How a text stands between the double quotes of a string literal, for each
target. Nothing in it can end the literal, break the line, or, where the
target has string templates, begin one.
-/

namespace Templating.Literal

/-- The control characters, C0 and C1. -/
def isControl (c : Char) : Bool :=
  c.toNat < 0x20 || (0x7f ≤ c.toNat && c.toNat < 0xa0)

/-- The UTF-16 code units of a character. -/
def codeUnits (c : Char) : List Nat :=
  let n := c.toNat
  if n < 0x10000 then [n]
  else [0xd800 + (n - 0x10000) / 0x400, 0xdc00 + (n - 0x10000) % 0x400]

/-- A code unit in four hexadecimal digits. -/
def fourDigits (n : Nat) : List Char :=
  [n / 0x1000 % 16, n / 0x100 % 16, n / 0x10 % 16, n % 16].map Nat.digitChar

/-- Escaping with numbered characters in braces. -/
def escapeBraced (c : Char) : List Char :=
  match c with
  | '\\' => ['\\', '\\']
  | '"' => ['\\', '"']
  | '\n' => ['\\', 'n']
  | '\r' => ['\\', 'r']
  | '\t' => ['\\', 't']
  | '\x00' => ['\\', '0']
  | c => if isControl c then ['\\', 'u', '{'] ++ Nat.toDigits 16 c.toNat ++ ['}'] else [c]

/-- Escaping with numbered UTF-16 code units, where `$` begins a template. -/
def escapeUnits (c : Char) : List Char :=
  match c with
  | '\\' => ['\\', '\\']
  | '"' => ['\\', '"']
  | '$' => ['\\', '$']
  | '\n' => ['\\', 'n']
  | '\r' => ['\\', 'r']
  | '\t' => ['\\', 't']
  | '\x08' => ['\\', 'b']
  | c =>
      if isControl c || 0xffff < c.toNat then
        (codeUnits c).flatMap fun unit => '\\' :: 'u' :: fourDigits unit
      else [c]

/-- How a character stands in a string literal of the target. -/
def escapeChar : Target → Char → List Char
  | .rust => escapeBraced
  | .kotlin => escapeUnits

/-- The text between the quotes of a string literal of the target. -/
def escape (t : Target) (text : String) : String :=
  String.ofList (text.toList.flatMap (escapeChar t))

/-- The string literal of the target. -/
def quote (t : Target) (text : String) : String :=
  "\"" ++ escape t text ++ "\""

end Templating.Literal
