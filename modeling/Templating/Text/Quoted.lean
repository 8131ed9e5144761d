import Templating.Text.Printed

/-!
# Text quoted for a reader

A quoted text stands in double quotes; the quote and the backslash take a
backslash, four controls have short names, and every other hidden character
is written by its number in braces.
-/

namespace Templating.Text

/-- The digits of `n` in lower-case hexadecimal. -/
def hexDigits (n : Nat) : List Char :=
  Nat.toDigits 16 n

/-- How one character stands inside the quotes. -/
def quotedChar (c : Char) : List Char :=
  if c = '"' then ['\\', '"']
  else if c = '\\' then ['\\', '\\']
  else if c = '\x00' then ['\\', '0']
  else if c = '\t' then ['\\', 't']
  else if c = '\n' then ['\\', 'n']
  else if c = '\r' then ['\\', 'r']
  else if isHidden c then ['\\', 'u', '{'] ++ hexDigits c.toNat ++ ['}']
  else [c]

/-- The text in quotes. -/
def quoted (s : String) : String :=
  String.ofList ('"' :: s.toList.flatMap quotedChar ++ ['"'])

/-- The quoted texts in brackets. -/
def quotedList (ss : List String) : String :=
  "[" ++ String.intercalate ", " (ss.map quoted) ++ "]"

end Templating.Text
