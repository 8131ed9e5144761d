import Templating.SourceUnit.LineMap

/-!
# Drafts

A draft is source text in the making, line by line. Each line remembers the
template line that was current when it was written, so the line map of a draft
is always as long as the list of its lines.
-/

namespace Templating

/-- A line that is still to be indented. -/
structure Line where
  level : Nat
  text : String
deriving DecidableEq, Repr

/-- A line of a draft, indented, without its line break. -/
structure Draft.Written where
  text : String
  templateLine : Nat
deriving DecidableEq, Repr

structure Draft where
  /-- One level of indentation. -/
  indent : String
  written : Array Draft.Written := #[]
  /-- The template line that the next lines come from. -/
  templateLine : Nat := 1

namespace Draft

/-- Set the template line that the next lines come from. -/
def setLine (d : Draft) (templateLine : Nat) : Draft :=
  { d with templateLine }

def indentation (d : Draft) (level : Nat) : String :=
  String.join (List.replicate level d.indent)

/-- Write one line. -/
def writeLine (d : Draft) (line : Line) : Draft :=
  { d with written := d.written.push ⟨d.indentation line.level ++ line.text, d.templateLine⟩ }

/-- Write an empty line. -/
def blank (d : Draft) : Draft :=
  d.writeLine ⟨0, ""⟩

def writeLines (d : Draft) (lines : List Line) : Draft :=
  lines.foldl writeLine d

/-- Add what another draft has written. -/
def append (d e : Draft) : Draft :=
  { d with written := d.written ++ e.written }

def lineCount (d : Draft) : Nat :=
  d.written.size

/-- The whole text; every line ends with a line break. -/
def code (d : Draft) : String :=
  d.written.foldl (fun text line => text ++ line.text ++ "\n") ""

def lineMap (d : Draft) : LineMap :=
  ⟨d.written.toList.map Written.templateLine⟩

end Draft

end Templating
