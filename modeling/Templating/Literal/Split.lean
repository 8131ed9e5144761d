import Templating.Text.Utf8

/-!
# Splitting long literals

A long text is written in several literals. Each piece takes as many
characters as fit the limit, and at least one.
-/

namespace Templating.Literal

/-- Go on after the characters `piece`, last one first, which take `size`
bytes. -/
def splitAfter (limit : Nat) (piece : List Char) (size : Nat) : List Char → List (List Char)
  | [] => if piece = [] then [] else [piece.reverse]
  | c :: cs =>
      if piece ≠ [] ∧ limit < size + c.utf8Size then
        piece.reverse :: splitAfter limit [c] c.utf8Size cs
      else splitAfter limit (c :: piece) (size + c.utf8Size) cs

/-- Cut a text into pieces of at most `limit` bytes; a wider character is a
piece of its own. The least limit is one byte. -/
def split (limit : Nat) (text : String) : List String :=
  (splitAfter (max limit 1) [] 0 text.toList).map String.ofList

end Templating.Literal
