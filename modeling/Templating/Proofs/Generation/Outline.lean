import Templating.Proofs.Dialect.OneLine
import Templating.Proofs.Generation.Written
import Templating.Proofs.Literal.Decode
import Templating.Proofs.Literal.Sealed

/-!
# The outline of a unit

The outline of code is what a reader sees of it that leaves out the insides of
string literals. The text of a template, the names of its slots and its own name
are only in these insides, so the outline of a unit does not depend on them.
What else a unit takes from a name is plain.
-/

namespace Templating

namespace Literal

/-- A line of code with the insides of its literals left out. -/
def outline (t : Target) (line : String) : List Char :=
  skeleton t .code line.toList

theorem outline_append {t : Target} {words : String} (h : '"' ∉ words.toList) (rest : String) :
    outline t (words ++ rest) = words.toList ++ outline t rest := by
  rw [outline, String.toList_append, skeleton_append h]
  rfl

/-- The text of a literal is not in the outline. -/
theorem outline_quote_append (t : Target) (text rest : String) :
    outline t (quote t text ++ rest) = '"' :: '"' :: outline t rest := by
  rw [outline, String.toList_append, skeleton_quote]
  rfl

theorem outline_quote (t : Target) (text : String) : outline t (quote t text) = ['"', '"'] := by
  have := outline_quote_append t text ""
  rwa [String.append_empty] at this

end Literal

namespace Dialect

open Literal (outline outline_append outline_quote outline_quote_append)

/-- The instruction with its text or the name of its slot left out. -/
def Instruction.untexted : Instruction → Instruction
  | .text _ => .text ""
  | .slotBegin _ => .slotBegin ""
  | .render _ => .render ""
  | i => i

/-- The header with the name of its template left out. What the address of the
unit says beside it stays. -/
def Header.unnamed (h : Header) : Header :=
  { h with address := { h.address with template := ⟨""⟩ } }

/-- The outline of a line that is still to be indented. -/
def lineOutline (t : Target) (line : Line) : Nat × List Char :=
  (line.level, outline t line.text)

/-- **Text and names of slots are not in the outline** of what they are written
in. -/
theorem outline_instruction (t : Target) (i : Instruction) :
    ((spelling t).instruction i).map (lineOutline t) =
      ((spelling t).instruction i.untexted).map (lineOutline t) := by
  cases t with
  | rust =>
      show (Rust.instruction i).map (lineOutline .rust) =
        (Rust.instruction i.untexted).map (lineOutline .rust)
      cases i with
      | text | slotBegin | render =>
          simp (disch := decide) only [Instruction.untexted, Rust.instruction, Rust.quote,
            List.map_cons, List.map_nil, lineOutline, String.append_assoc, outline_append,
            outline_quote_append]
      | _ => rfl
  | kotlin =>
      show (Kotlin.instruction i).map (lineOutline .kotlin) =
        (Kotlin.instruction i.untexted).map (lineOutline .kotlin)
      cases i with
      | text | slotBegin | render =>
          simp (disch := decide) only [Instruction.untexted, Kotlin.instruction, Kotlin.quote,
            List.map_cons, List.map_nil, lineOutline, String.append_assoc, outline_append,
            outline_quote_append]
      | _ => rfl

/-- **The name of a template is not in the outline** of the frame around its
unit. -/
theorem outline_prologue (t : Target) (h : Header) :
    ((spelling t).prologue h).map (lineOutline t) =
      ((spelling t).prologue h.unnamed).map (lineOutline t) := by
  cases t with
  | rust =>
      have hname (text : String) : outline .rust
          ("pub const TEMPLATE_NAME: &str = " ++ Literal.quote .rust text ++ ";") =
            "pub const TEMPLATE_NAME: &str = ".toList ++ '"' :: '"' :: outline .rust ";" := by
        rw [String.append_assoc, outline_append (by decide), outline_quote_append]
      show (Rust.prologue h).map (lineOutline .rust) =
        (Rust.prologue h.unnamed).map (lineOutline .rust)
      simp only [Rust.prologue, Rust.quote, List.map_append, List.map_cons, List.map_nil,
        lineOutline, hname]
      rfl
  | kotlin =>
      have hname (text : String) : outline .kotlin
          ("const val TEMPLATE_NAME = " ++ Literal.quote .kotlin text) =
            "const val TEMPLATE_NAME = ".toList ++ ['"', '"'] := by
        rw [outline_append (by decide), outline_quote]
      show (Kotlin.prologue h).map (lineOutline .kotlin) =
        (Kotlin.prologue h.unnamed).map (lineOutline .kotlin)
      simp only [Kotlin.prologue, Kotlin.quote, List.map_append, List.map_cons, List.map_nil,
        lineOutline, hname]
      rfl

end Dialect

namespace Generation

open Literal (outline active bare escape codeUnits readBraced? readUnits?)
open Dialect (lineOutline)

variable {σ : Type}

/-- The outline of a draft, entry by entry. -/
def outlines (t : Target) (written : List Draft.Written) : List (List Char) :=
  written.map fun entry => outline t entry.text

/-- The draft entries of a unit with this header and body. -/
def spelled (t : Target) (h : Dialect.Header) (body : List Placed) (lastLine : Nat) :
    List Draft.Written :=
  ((Dialect.spelling t).prologue h).map (Draft.placed (Dialect.spelling t).indent 1) ++
    body.flatMap (Placed.written t) ++
    (Dialect.spelling t).epilogue.map (Draft.placed (Dialect.spelling t).indent lastLine)

/-- An instruction at its place, with its text left out. -/
def Placed.untexted (placed : Placed) : Placed :=
  { placed with instruction := placed.instruction.untexted }

theorem quote_not_mem_indentation (t : Target) (level : Nat) :
    '"' ∉ (String.join (List.replicate level (Dialect.spelling t).indent)).toList := by
  have hindent : '"' ∉ (Dialect.spelling t).indent.toList := by cases t <;> decide
  induction level with
  | zero => simp
  | succ level ih =>
      rw [List.replicate_succ, String.join_cons, String.toList_append, List.mem_append]
      rintro (h | h)
      · exact hindent h
      · exact ih h

/-- The outline of an entry is that of its line. -/
theorem outlines_placed (t : Target) (level templateLine : Nat) {xs ys : List Line}
    (h : xs.map (lineOutline t) = ys.map (lineOutline t)) :
    outlines t (xs.map fun line => Draft.placed (Dialect.spelling t).indent templateLine
        ⟨level + line.level, line.text⟩) =
      outlines t (ys.map fun line => Draft.placed (Dialect.spelling t).indent templateLine
        ⟨level + line.level, line.text⟩) := by
  have hentry (line : Line) : outline t (Draft.placed (Dialect.spelling t).indent templateLine
      ⟨level + line.level, line.text⟩).text =
        (String.join (List.replicate (level + (lineOutline t line).1)
          (Dialect.spelling t).indent)).toList ++ (lineOutline t line).2 :=
    Literal.outline_append (quote_not_mem_indentation t _) line.text
  have hlines (lines : List Line) : outlines t (lines.map fun line =>
      Draft.placed (Dialect.spelling t).indent templateLine ⟨level + line.level, line.text⟩) =
        (lines.map (lineOutline t)).map fun entry =>
          (String.join (List.replicate (level + entry.1) (Dialect.spelling t).indent)).toList ++
            entry.2 := by
    rw [outlines, List.map_map, List.map_map]
    exact List.map_congr_left fun line _ => hentry line
  rw [hlines, hlines, h]

/-- **The outline of a unit does not depend on texts and names.** -/
theorem outlines_spelled (t : Target) (h : Dialect.Header) (body : List Placed) (lastLine : Nat) :
    outlines t (spelled t h body lastLine) =
      outlines t (spelled t h.unnamed (body.map Placed.untexted) lastLine) := by
  have happend (xs ys : List Draft.Written) :
      outlines t (xs ++ ys) = outlines t xs ++ outlines t ys := List.map_append
  have hprologue : outlines t (((Dialect.spelling t).prologue h).map
        (Draft.placed (Dialect.spelling t).indent 1)) =
      outlines t (((Dialect.spelling t).prologue h.unnamed).map
        (Draft.placed (Dialect.spelling t).indent 1)) := by
    have := outlines_placed t 0 1 (Dialect.outline_prologue t h)
    simpa only [Nat.zero_add] using this
  have hbody : outlines t (body.flatMap (Placed.written t)) =
      outlines t ((body.map Placed.untexted).flatMap (Placed.written t)) := by
    induction body with
    | nil => rfl
    | cons placed body ih =>
        rw [List.map_cons, List.flatMap_cons, List.flatMap_cons, happend, happend, ih]
        exact congrArg (· ++ _) (outlines_placed t placed.level placed.templateLine
          (Dialect.outline_instruction t placed.instruction))
  rw [spelled, spelled, happend, happend, happend, happend, hprologue, hbody]

/-- **Literals are faithful and sealed.** An escaped text has no bare quote,
backslash or line break, nor what begins a template, and it is read back by the
rules of the target: as the text itself where escapes number characters, as its
UTF-16 code units where they number those. So a unit has the same outline
whatever the text of its template, the names of its slots and its own name are,
and what else it takes from a name has only plain characters. -/
theorem literals_sealed (text : String) (setting : Setting) (linker : Linker σ) (name : Name)
    (root source : String) (s : σ) :
    ((∀ t, ∀ c ∈ bare (escape t text).toList, c ∉ active t) ∧
      readBraced? .text (escape .rust text).toList = some text.toList ∧
      readUnits? .text (escape .kotlin text).toList = some (text.toList.flatMap codeUnits)) ∧
    (∀ unit, ((generate setting linker (Address.ofName name root) source).run s).1 = .ok unit →
      ∃ entries, Generated setting linker (Address.ofName name root) source entries unit ∧
        ∀ lastLine, outlines name.target
            (writtenOf setting (Address.ofName name root) name.kind lastLine entries) =
          outlines name.target (spelled name.target
            (headerOf setting (Address.ofName name root) name.kind entries).unnamed
            ((placements setting 0 entries).map Placed.untexted) lastLine)) ∧
    ∀ segment ∈ (Address.ofName name root).package ++ [(Address.ofName name root).unitName],
      ∀ c ∈ segment.toList, Address.isPlain c = true := by
  refine ⟨⟨fun t => (Literal.sealed_escape t text).bare, Literal.readBraced?_escape text,
    Literal.readUnits?_escape text⟩, ?_, Address.isPlain_ofName name root⟩
  intro unit h
  obtain ⟨entries, hunit⟩ := generated h
  exact ⟨entries, hunit, outlines_spelled name.target _ _⟩

end Generation

end Templating
