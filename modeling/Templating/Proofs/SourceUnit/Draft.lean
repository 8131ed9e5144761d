import Templating.Proofs.Text.Lines
import Templating.SourceUnit.Draft

/-!
# Lines of a draft and what wrote them

A draft is written entry by entry, and its line map has one template line for
each entry. An entry with a newline inside takes up several lines of the code,
though. `attributed` goes by the lines of the code: it gives each of them the
template line of the entry that it is part of. The line map agrees with it just
when no entry has a newline inside.
-/

namespace Templating

namespace Draft

/-- The code that the entries make up: every entry ends with a newline. -/
def codeOf (written : List Written) : List Char :=
  written.flatMap fun w => w.text.toList ++ ['\n']

/-- The lines of code that an entry takes up, each with the template line of
the entry. -/
def Written.attributed (w : Written) : List (List Char × Nat) :=
  (Text.lines (w.text.toList ++ ['\n'])).map fun line => (line, w.templateLine)

/-- The lines of the code that the entries make up, each with the template line
of the entry that it is part of. -/
def attributed (written : List Written) : List (List Char × Nat) :=
  written.flatMap Written.attributed

theorem toList_code (d : Draft) : d.code.toList = codeOf d.written.toList := by
  have hfold (written : List Written) (text : String) :
      (written.foldl (fun text line => text ++ line.text ++ "\n") text).toList =
        text.toList ++ codeOf written := by
    induction written generalizing text with
    | nil => simp [codeOf]
    | cons w written ih =>
        rw [List.foldl_cons, ih]
        simp [codeOf]
  unfold code
  rw [← Array.foldl_toList, hfold]
  simp

/-- **`attributed` goes by the lines of the code.** -/
theorem attributed_lines (written : List Written) :
    (attributed written).map Prod.fst = Text.lines (codeOf written) := by
  induction written with
  | nil => rfl
  | cons w written ih =>
      rw [codeOf, List.flatMap_cons, List.append_assoc, List.singleton_append,
        Text.lines_append_newline, ← codeOf, ← ih]
      simp [attributed, Written.attributed, Function.comp_def]

theorem Written.length_attributed (w : Written) :
    w.attributed.length = w.text.toList.count '\n' + 1 := by
  rw [Written.attributed, List.length_map, Text.length_lines_newline]

theorem length_le_attributed (written : List Written) :
    written.length ≤ (attributed written).length := by
  induction written with
  | nil => exact Nat.le_refl 0
  | cons w written ih =>
      rw [attributed, List.flatMap_cons, List.length_append, ← attributed, w.length_attributed,
        List.length_cons]
      omega

/-- An entry without a newline is one line. -/
theorem attributed_of_oneLine {written : List Written}
    (h : ∀ w ∈ written, Text.Unbroken w.text) :
    (attributed written).map Prod.snd = written.map Written.templateLine := by
  induction written with
  | nil => rfl
  | cons w written ih =>
      obtain ⟨hw, hrest⟩ := List.forall_mem_cons.mp h
      have hlines : (Text.lines (w.text.toList ++ ['\n'])).length = 1 := by
        rw [Text.length_lines_newline, List.count_eq_zero.mpr hw]
      obtain ⟨line, hline⟩ := List.length_eq_one_iff.mp hlines
      rw [attributed, List.flatMap_cons, List.map_append, ← attributed, ih hrest,
        Written.attributed, hline]
      rfl

/-- **The entries are as many as the lines of their code just when no entry has a
newline inside.** -/
theorem length_eq_lines_iff (written : List Written) :
    written.length = (Text.lines (codeOf written)).length ↔
      ∀ w ∈ written, Text.Unbroken w.text := by
  rw [← attributed_lines, List.length_map]
  induction written with
  | nil => simp [attributed]
  | cons w written ih =>
      -- No entry takes up less than a line, so none can make up for another.
      have hle := length_le_attributed written
      rw [List.forall_mem_cons, ← ih, attributed, List.flatMap_cons, List.length_append,
        ← attributed, w.length_attributed, List.length_cons, Text.Unbroken, ← List.count_eq_zero]
      omega

/-- **The template lines of the entries are those of the lines of their code just
when no entry has a newline inside.** -/
theorem templateLines_eq_iff (written : List Written) :
    written.map Written.templateLine = (attributed written).map Prod.snd ↔
      ∀ w ∈ written, Text.Unbroken w.text := by
  constructor
  · intro h
    refine (length_eq_lines_iff written).mp ?_
    rw [← attributed_lines, List.length_map, ← List.length_map (f := Prod.snd), ← h,
      List.length_map]
  · intro h
    exact (attributed_of_oneLine h).symm

/-! ## Writing -/

/-- What a line becomes in a draft. -/
def placed (indent : String) (templateLine : Nat) (line : Line) : Written :=
  ⟨String.join (List.replicate line.level indent) ++ line.text, templateLine⟩

theorem writeLines_indent (d : Draft) (lines : List Line) :
    (d.writeLines lines).indent = d.indent := by
  unfold writeLines
  induction lines generalizing d with
  | nil => rfl
  | cons line lines ih =>
      rw [List.foldl_cons, ih]
      rfl

theorem writeLines_written (d : Draft) (lines : List Line) :
    (d.writeLines lines).written.toList =
      d.written.toList ++ lines.map (placed d.indent d.templateLine) := by
  unfold writeLines
  induction lines generalizing d with
  | nil => simp
  | cons line lines ih =>
      rw [List.foldl_cons, ih]
      simp [writeLine, indentation, placed]

/-- Indentation does not break a line. -/
theorem unbroken_placed {indent : String} (hindent : Text.Unbroken indent) (templateLine : Nat)
    (line : Line) : Text.Unbroken (placed indent templateLine line).text ↔
      Text.Unbroken line.text := by
  have hjoin (n : Nat) : Text.Unbroken (String.join (List.replicate n indent)) := by
    intro hmem
    rw [String.toList_join] at hmem
    obtain ⟨cs, hcs, hc⟩ := List.mem_flatMap.mp hmem
    rw [List.eq_of_mem_replicate hcs] at hc
    exact hindent hc
  rw [placed, Text.unbroken_append, and_iff_right (hjoin line.level)]

end Draft

end Templating
