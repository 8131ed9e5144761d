import Templating.Markup.Escape
import Templating.Text.Utf8

/-!
# What rendered templates write

A rendered template makes a sequence of writes: static text, values, and
slices of a binary. An output takes them in chunks of text. A plain output
takes values as they are; one for markup escapes them.
-/

namespace Templating.Markup

inductive Write where
  /-- Text as it is. -/
  | raw (text : String)
  /-- The value of an expression. -/
  | escaped (text : String)
  /-- Bytes of text; what is not text is replaced. -/
  | bytes (content : List UInt8)
deriving DecidableEq

namespace Write

def bytesText (content : List UInt8) : String :=
  String.ofList (Text.ofBytesLossy content)

/-- The chunks in which a plain output takes a write. -/
def plainChunks : Write → List String
  | raw text | escaped text => [text]
  | bytes content => [bytesText content]

/-- The chunks in which an output for markup takes a write. -/
def markupChunks : Write → List String
  | raw text => [text]
  | escaped text => escapeChunks text
  | bytes content => [bytesText content]

end Write

/-- Everything a plain output has taken. -/
def plainText (writes : List Write) : String :=
  String.join (writes.flatMap Write.plainChunks)

/-- Everything an output for markup has taken. -/
def markupText (writes : List Write) : String :=
  String.join (writes.flatMap Write.markupChunks)

end Templating.Markup
