/-!
# Escaping for markup

Text that goes into markup has its five special characters replaced by
character references. The result is handed out in chunks: each run of
ordinary characters, and each reference, is one chunk.
-/

namespace Templating.Markup

/-- The reference that stands for a special character. -/
def reference? (c : Char) : Option String :=
  match c with
  | '&' => some "&amp;"
  | '<' => some "&lt;"
  | '>' => some "&gt;"
  | '"' => some "&#34;"
  | '\'' => some "&#39;"
  | _ => none

/-- What stands for a character in escaped text. -/
def escapeChar (c : Char) : List Char :=
  match reference? c with
  | some r => r.toList
  | none => [c]

/-- The escaped text, character by character. -/
def escape (s : String) : String :=
  String.ofList (s.toList.flatMap escapeChar)

/-- A run of ordinary characters as a chunk, if there are any. `run` has the
last one first. -/
def runChunk (run : List Char) : List String :=
  if run.isEmpty then [] else [String.ofList run.reverse]

/-- The chunks of the escaped text, after the ordinary characters `run`. -/
def chunksAfter (run : List Char) : List Char → List String
  | [] => runChunk run
  | c :: cs =>
      match reference? c with
      | some r => runChunk run ++ r :: chunksAfter [] cs
      | none => chunksAfter (c :: run) cs

/-- The escaped text in the chunks in which it is written. -/
def escapeChunks (s : String) : List String :=
  chunksAfter [] s.toList

end Templating.Markup
