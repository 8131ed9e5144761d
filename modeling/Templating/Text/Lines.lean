/-!
# Lines

A line of text ends with its line feed, or with the text. `lineSpan` says
which characters a line covers without what ends it, counting lines from 1; a
line past the last one is the empty stretch at the end.
-/

namespace Templating.Text

/-- The lines, each with the line feed that ends it. -/
def lines : List Char → List (List Char)
  | [] => []
  | c :: cs =>
      if c = '\n' then [c] :: lines cs
      else match lines cs with
        | [] => [[c]]
        | l :: ls => (c :: l) :: ls

/-- The lines hold the text, nothing else and nothing less. -/
theorem flatten_lines (cs : List Char) : (lines cs).flatten = cs := by
  induction cs with
  | nil => rfl
  | cons c cs ih =>
      unfold lines
      split
      · simp [ih]
      · split
        · rename_i h
          rw [h] at ih
          simp at ih
          simp [← ih]
        · rename_i l ls h
          rw [h] at ih
          simp at ih
          simp [ih]

/-- A line without the line feed and carriage returns at its end. -/
def dropLineEnd (line : List Char) : List Char :=
  (line.reverse.dropWhile fun c => c == '\n' || c == '\r').reverse

/-- Where line `n` of these lines starts and stops, if the first one starts at
`start`. -/
def spanFrom (start : Nat) : Nat → List (List Char) → Nat × Nat
  | _, [] => (start, start)
  | n, line :: rest =>
      if n = 1 then (start, start + (dropLineEnd line).length)
      else spanFrom (start + line.length) (n - 1) rest

/-- The characters of line `n`, from the first up to but not including the
second number. -/
def lineSpan (source : String) (n : Nat) : Nat × Nat :=
  spanFrom 0 n (lines source.toList)

/-- A line with its number and the place of its first character. -/
structure PlacedLine where
  number : Nat
  start : Nat
  text : List Char

/-- The given lines with their numbers and places. -/
def placeLines (number start : Nat) : List (List Char) → List PlacedLine
  | [] => []
  | line :: rest => ⟨number, start, line⟩ :: placeLines (number + 1) (start + line.length) rest

/-- The last line that starts at or before a character. -/
def lineAt? (source : String) (place : Nat) : Option PlacedLine :=
  ((placeLines 1 0 (lines source.toList)).filter fun l => decide (l.start ≤ place)).getLast?

end Templating.Text
