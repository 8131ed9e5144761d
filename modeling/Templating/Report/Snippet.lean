import Templating.Diagnostic
import Templating.Text.Blank
import Templating.Text.Lines
import Templating.Text.Width

/-!
# Snippets

A snippet shows one template line with a message hanging from its middle:

    [E2001] Error: template not found
       ╭─[page.stn:2:1]
       │
     2 │ @tag.x()
       │ ────┬───
       │     ╰───── tag/x.stn not found
    ───╯

A tab reaches to the next multiple of four characters and every other blank is
one column wide; any other character takes the columns that it has in a terminal.
-/

namespace Templating.Report

/-- A message about one line of a template. -/
structure Snippet where
  code : Diagnostic.Code
  template : Name
  line : Nat
  message : String
deriving DecidableEq, Repr

namespace Snippet

/-- How wide a tab at a character index is. -/
def tabWidth (index : Nat) : Nat :=
  (index / 4 + 1) * 4 - index

/-- How wide the character at an index is; past the text every index counts as
one column. -/
def width (text : List Char) (index : Nat) : Nat :=
  match text[index]? with
  | some c =>
      if c = '\t' then tabWidth index
      else if Text.isBlank c then 1 else Text.columnsOf c
  | none => 1

/-- The text with blanks for tabs and for every other blank. -/
def columns (text : List Char) : List Char :=
  text.zipIdx.flatMap fun (c, index) =>
    if c = '\t' then List.replicate (tabWidth index) ' '
    else if Text.isBlank c then [' '] else [c]

/-- A character, followed by another one up to a width. -/
def cell (width : Nat) (first rest : Char) : List Char :=
  (first :: List.replicate (width - 1) rest).take width

/-- The row that underlines the characters from `first` to `last`, with a mark
at `middle`. -/
def underline (text : List Char) (first last middle : Nat) : List Char :=
  (List.range (last + 2)).flatMap fun i =>
    if first ≤ i ∧ i < last then cell (width text i) (if i = middle then '┬' else '─') '─'
    else cell (width text i) (if i = middle then '│' else ' ') ' '

/-- The row that leads from the mark to the message. -/
def lead (text : List Char) (last middle : Nat) : List Char :=
  (List.range (last + 2)).flatMap fun i =>
    if i < middle then cell (width text i) ' ' ' '
    else if i = middle then cell (width text i) '╰' '─'
    else cell (width text i) '─' '─'

/-- The line that a snippet is about, with the message below it. -/
def drawLine (s : Snippet) (source : String) (line : Text.PlacedLine) : String :=
  let (start, stop) := Text.lineSpan source s.line
  let text := Text.trimEnd line.text
  let first := start - line.start
  let last := stop - line.start
  let middle := (start + stop) / 2 - line.start
  let number := toString line.number
  let margin := String.ofList (List.replicate (number.length + 2) ' ')
  margin ++ "╭─[" ++ s.template.text ++ ":" ++ number ++ ":" ++ toString (first + 1) ++ "]\n" ++
  margin ++ "│\n" ++
  " " ++ number ++ " │ " ++ String.ofList (columns text) ++ "\n" ++
  margin ++ "│ " ++ String.ofList (underline text first last middle) ++ "\n" ++
  margin ++ "│ " ++ String.ofList (lead text last middle) ++ " " ++ s.message ++ "\n" ++
  String.ofList (List.replicate (number.length + 2) '─') ++ "╯\n"

/-- The snippet, drawn on the source of its template. -/
def draw (s : Snippet) (source : String) : String :=
  "[" ++ s.code.label ++ "] Error: " ++ s.code.title ++ "\n" ++
    match Text.lineAt? source (Text.lineSpan source s.line).1 with
    | some line => s.drawLine source line
    | none => ""

/-- The snippet where the source is not to be had. -/
def undrawn (s : Snippet) : String :=
  "error[" ++ s.code.label ++ "]: " ++ s.template.text ++ ":" ++ toString s.line ++ ": " ++
    s.message ++ "\n"

end Snippet

end Templating.Report
