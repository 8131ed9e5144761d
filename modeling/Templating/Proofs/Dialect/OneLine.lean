import Templating.Dialect
import Templating.Proofs.Literal.Sealed
import Templating.Proofs.Text.Lines
import Templating.Proofs.Text.Trim

/-!
# Instructions on one line

A dialect spells an instruction in lines, and puts pieces of the template's own
code into them as they are. Only these pieces can break a line: the words of
the dialect do not, literals are escaped, and the names of a unit are plain.
-/

namespace Templating

open Text (Unbroken)

namespace Literal

/-- Escaping leaves no newline: it is one of the characters that have an escape
of their own. -/
theorem newline_not_mem_escapeChar (t : Target) (c : Char) : '\n' ∉ escapeChar t c := by
  cases t with
  | rust =>
      show '\n' ∉ escapeBraced c
      unfold escapeBraced
      split
      case h_7 _ _ _ hc _ _ _ =>
        split
        · have hdigits : '\n' ∉ Nat.toDigits 16 c.toNat :=
            fun h => toDigits_inactive .rust (by decide) _ _ h (by decide)
          simp [hdigits]
        · simpa using Ne.symm hc
      all_goals decide
  | kotlin =>
      show '\n' ∉ escapeUnits c
      unfold escapeUnits
      split
      case h_8 _ _ _ _ hc _ _ _ =>
        split
        · have hdigits (unit : Nat) : '\n' ∉ fourDigits unit :=
            fun h => fourDigits_inactive .kotlin unit _ h (by decide)
          simp [hdigits]
        · simpa using Ne.symm hc
      all_goals decide

theorem unbroken_quote (t : Target) (text : String) : Unbroken (quote t text) := by
  rw [quote, Text.unbroken_append, Text.unbroken_append, escape]
  refine ⟨⟨by decide, ?_⟩, by decide⟩
  rw [Text.unbroken_ofList]
  intro h
  obtain ⟨c, -, hc⟩ := List.mem_flatMap.mp h
  exact newline_not_mem_escapeChar t c hc

end Literal

namespace Dialect

/-- The pieces of code that the instruction quotes have no newline where it
quotes them. -/
def Instruction.OneLine : Instruction → Prop
  | .value _ code => Unbroken code
  | .statement code | .conditionBegin code | .conditionElseIf code | .loopBegin code =>
      Unbroken (Text.trimmed code)
  | .tagCall callee arguments | .layoutBegin callee arguments =>
      (∀ segment ∈ callee.package ++ [callee.unitName], Unbroken segment) ∧
        ∀ argument ∈ arguments, Unbroken argument
  | _ => True

instance : DecidablePred Instruction.OneLine := fun i => by
  cases i <;> unfold Instruction.OneLine <;> infer_instance

theorem unbroken_qualified {a : Address} {sep : String} (hsep : Unbroken sep) :
    Unbroken (a.qualified sep) ↔ ∀ segment ∈ a.package ++ [a.unitName], Unbroken segment :=
  Text.unbroken_intercalate hsep

theorem unbroken_importPath {i : String} (h : Unbroken i) : Unbroken (importPath i) := by
  rw [importPath, Text.unbroken_ofList, List.mem_reverse]
  intro hmem
  have hreverse := (List.dropWhile_suffix _).subset hmem
  rw [List.mem_reverse] at hreverse
  exact h (Text.mem_of_mem_trim hreverse)

namespace Rust

theorem unbroken_terminated (code : String) :
    Unbroken (terminated code) ↔ Unbroken (Text.trimmed code) := by
  unfold terminated
  simp only
  split
  · rfl
  · rfl
  · rw [Text.unbroken_append, and_iff_left (by decide)]
    rfl

theorem unbroken_passed (arguments : List String) :
    Unbroken (passed arguments) ↔ ∀ argument ∈ arguments, Unbroken argument := by
  rw [passed, Text.unbroken_intercalate (by decide), List.forall_mem_cons,
    and_iff_right (by decide)]

theorem unbroken_path (callee : Address) : Unbroken (path callee) ↔
    ∀ segment ∈ callee.package ++ [callee.unitName], Unbroken segment := by
  rw [path, Text.unbroken_append, Text.unbroken_append, unbroken_qualified (by decide),
    and_iff_left (by decide), and_iff_right (by decide)]

/-- **A spelled instruction has no newline just when its code has none.** -/
theorem unbroken_instruction (i : Instruction) :
    (∀ line ∈ instruction i, Unbroken line.text) ↔ i.OneLine := by
  have hquote (text : String) : Unbroken (quote text) := Literal.unbroken_quote .rust text
  cases i with
  | value escaping code => cases escaping <;> simp +decide [instruction, Instruction.OneLine]
  | statement code => simp [instruction, Instruction.OneLine, unbroken_terminated]
  | tagCall callee arguments =>
      simp +decide [instruction, Instruction.OneLine, unbroken_path, unbroken_passed]
  | layoutBegin callee arguments =>
      simp +decide [instruction, Instruction.OneLine, unbroken_path, unbroken_passed]
  | layoutEnd forward => cases forward <;> decide
  | _ => simp +decide [instruction, Instruction.OneLine, hquote, Text.unbroken_repr]

theorem unbroken_paramLine {p : Param} (hname : Unbroken p.name) (htype : Unbroken p.type) :
    Unbroken (paramLine p).text := by
  unfold paramLine
  split <;> simp +decide [hname, htype]

/-- Nothing that the frame says breaks a line, if no declaration does. -/
theorem unbroken_prologue {h : Header} (hunit : Unbroken h.address.unitName)
    (himports : ∀ i ∈ h.imports, Unbroken i)
    (hparams : ∀ p ∈ h.params, Unbroken p.name ∧ Unbroken p.type) :
    ∀ line ∈ prologue h, Unbroken line.text := by
  have hquote (text : String) : Unbroken (quote text) := Literal.unbroken_quote .rust text
  have himport : ∀ i ∈ h.imports, Unbroken (importPath i) :=
    fun i hi => unbroken_importPath (himports i hi)
  have hparam : ∀ p ∈ h.params, Unbroken (paramLine p).text :=
    fun p hp => unbroken_paramLine (hparams p hp).1 (hparams p hp).2
  simp only [prologue, List.forall_mem_append, List.forall_mem_map]
  refine ⟨⟨⟨⟨⟨⟨⟨?_, ?_⟩, ?_⟩, ?_⟩, ?_⟩, ?_⟩, ?_⟩, ?_⟩
  · simp +decide [hunit]
  · intro i hi
    simp +decide [himport i hi]
  · simp +decide [hquote]
  · split <;> simp +decide [hquote]
  · decide
  · exact hparam
  · split <;> decide
  · decide

end Rust

namespace Kotlin

theorem unbroken_passed (arguments : List String) :
    Unbroken (passed arguments) ↔ ∀ argument ∈ arguments, Unbroken argument := by
  rw [passed, Text.unbroken_intercalate (by decide), List.forall_mem_cons,
    and_iff_right (by decide)]

theorem unbroken_identifier (callee : Address) : Unbroken callee.identifier ↔
    ∀ segment ∈ callee.package ++ [callee.unitName], Unbroken segment :=
  unbroken_qualified (by decide)

/-- **A spelled instruction has no newline just when its code has none.** -/
theorem unbroken_instruction (i : Instruction) :
    (∀ line ∈ instruction i, Unbroken line.text) ↔ i.OneLine := by
  have hquote (text : String) : Unbroken (quote text) := Literal.unbroken_quote .kotlin text
  cases i with
  | value escaping code => cases escaping <;> simp +decide [instruction, Instruction.OneLine]
  | tagCall callee arguments =>
      simp +decide [instruction, Instruction.OneLine, unbroken_identifier, unbroken_passed]
  | layoutBegin callee arguments =>
      simp +decide [instruction, Instruction.OneLine, unbroken_identifier, unbroken_passed]
  | layoutEnd forward => cases forward <;> decide
  | _ => simp +decide [instruction, Instruction.OneLine, hquote, Text.unbroken_repr]

theorem unbroken_signature {h : Header}
    (hparams : ∀ p ∈ h.params, Unbroken p.name ∧ Unbroken p.type) : Unbroken (signature h) := by
  have hparam : ∀ p ∈ h.params, Unbroken (paramText p) := by
    intro p hp
    obtain ⟨hname, htype⟩ := hparams p hp
    unfold paramText
    split <;> simp +decide [hname, htype]
  unfold signature
  simp only [Text.unbroken_append]
  rw [Text.unbroken_intercalate (by decide), List.forall_mem_append, List.forall_mem_cons,
    List.forall_mem_map]
  refine ⟨⟨by decide, ⟨by decide, hparam⟩, ?_⟩, by decide⟩
  split <;> decide

/-- Nothing that the frame says breaks a line, if no declaration does. -/
theorem unbroken_prologue {h : Header}
    (hunit : ∀ segment ∈ h.address.package ++ [h.address.unitName], Unbroken segment)
    (himports : ∀ i ∈ h.imports, Unbroken i)
    (hparams : ∀ p ∈ h.params, Unbroken p.name ∧ Unbroken p.type) :
    ∀ line ∈ prologue h, Unbroken line.text := by
  have hquote (text : String) : Unbroken (quote text) := Literal.unbroken_quote .kotlin text
  obtain ⟨hpackage, hname⟩ := List.forall_mem_append.mp hunit
  have hname : Unbroken h.address.unitName := by simpa using hname
  simp only [prologue, List.forall_mem_append, List.forall_mem_map]
  refine ⟨⟨⟨⟨?_, ?_⟩, ?_⟩, ?_⟩, ?_⟩
  · split
    · simp
    · simpa +decide [Text.unbroken_intercalate] using hpackage
  · intro i hi
    simp +decide [unbroken_importPath (himports i hi)]
  · simp +decide [hquote, hname]
  · split <;> simp +decide [hname]
  · simp +decide [unbroken_signature hparams]

end Kotlin

/-- **In every target an instruction is spelled without a newline just when its
code has none.** -/
theorem unbroken_spelling (t : Target) (i : Instruction) :
    (∀ line ∈ (spelling t).instruction i, Unbroken line.text) ↔ i.OneLine := by
  cases t with
  | rust => exact Rust.unbroken_instruction i
  | kotlin => exact Kotlin.unbroken_instruction i

/-- Only what a template declares could break a line of the frame. -/
theorem unbroken_frame (t : Target) {h : Header}
    (hunit : ∀ segment ∈ h.address.package ++ [h.address.unitName], Unbroken segment)
    (himports : ∀ i ∈ h.imports, Unbroken i)
    (hparams : ∀ p ∈ h.params, Unbroken p.name ∧ Unbroken p.type) :
    ∀ line ∈ (spelling t).prologue h ++ (spelling t).epilogue, Unbroken line.text := by
  rw [List.forall_mem_append]
  cases t with
  | rust =>
      exact ⟨Rust.unbroken_prologue (hunit _ (by simp)) himports hparams, by decide⟩
  | kotlin => exact ⟨Kotlin.unbroken_prologue hunit himports hparams, by decide⟩

end Dialect

namespace Address

/-- The names that a unit is given are plain. -/
theorem isPlain_ofName (name : Name) (root : String) :
    ∀ segment ∈ (ofName name root).package ++ [(ofName name root).unitName],
      ∀ c ∈ segment.toList, isPlain c = true := by
  have hplain (segment : String) : ∀ c ∈ (plain segment).toList, isPlain c = true := by
    intro c hc
    rw [plain, String.toList_ofList] at hc
    obtain ⟨c', -, rfl⟩ := List.mem_map.mp hc
    split
    · assumption
    · decide
  rw [List.forall_mem_append]
  constructor
  · intro segment hsegment
    obtain ⟨s, -, rfl⟩ := List.mem_map.mp (List.mem_filter.mp hsegment).1
    exact hplain s
  · rw [List.forall_mem_singleton]
    show ∀ c ∈ ("Stn" ++ plain name.stem ++ "Generated").toList, isPlain c = true
    rw [String.toList_append, String.toList_append, List.forall_mem_append,
      List.forall_mem_append]
    exact ⟨⟨List.all_eq_true.mp (by decide), hplain name.stem⟩, List.all_eq_true.mp (by decide)⟩

theorem unbroken_ofName (name : Name) (root : String) :
    ∀ segment ∈ (ofName name root).package ++ [(ofName name root).unitName],
      Unbroken segment := by
  intro segment hsegment hnewline
  exact absurd (isPlain_ofName name root segment hsegment _ hnewline) (by decide)

end Address

end Templating
