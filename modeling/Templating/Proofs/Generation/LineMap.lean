import Templating.Proofs.Dialect.OneLine
import Templating.Proofs.Generation.Written

/-!
# Line maps of generated units

The line map of a unit has the template line of each entry that the unit is
written in. Code that the template quotes is written as it is, so an entry
whose code has a newline in it takes up several lines, and from there on the
line map is behind. It gives every line of the code its template line just when
there is no such entry.
-/

namespace Templating.Generation

open Text (Unbroken)

variable {σ : Type} {setting : Setting} {linker : Linker σ}

/-! ## Entries on one line -/

/-- What the event gives is written on lines of its own. -/
def Effect.OneLine : Effect → Prop
  | .code i => i.OneLine
  | _ => True

instance : DecidablePred Effect.OneLine := fun effect => by
  cases effect <;> unfold Effect.OneLine <;> infer_instance

theorem Effect.oneLine_iff (effect : Effect) (setting : Setting) (offset : Nat) :
    (∀ i ∈ effect.instructions setting offset, i.OneLine) ↔ effect.OneLine := by
  cases effect with
  | static text =>
      have hstatic : ∀ i ∈ (Effect.static text).instructions setting offset, i.OneLine := by
        intro i hi
        unfold instructions at hi
        simp only at hi
        split at hi
        · rw [List.mem_singleton.mp hi]
          exact trivial
        · obtain ⟨piece, -, rfl⟩ := List.mem_map.mp hi
          exact trivial
      exact iff_of_true hstatic trivial
  | code i => simp [instructions, OneLine]
  | nothing => simp [instructions, OneLine]

theorem unbroken_indent (t : Target) : Unbroken (Dialect.spelling t).indent := by
  cases t <;> decide

/-- The entries of an instruction are unbroken just when its code is. -/
theorem Placed.unbroken_written (t : Target) (placed : Placed) :
    (∀ w ∈ placed.written t, Unbroken w.text) ↔ placed.instruction.OneLine := by
  rw [Placed.written, List.forall_mem_map, ← Dialect.unbroken_spelling t]
  refine forall₂_congr ?_
  intro line _
  exact Draft.unbroken_placed (unbroken_indent t) _ _

theorem oneLine_placements (setting : Setting) (offset : Nat) (entries : List Entry) :
    (∀ placed ∈ placements setting offset entries, placed.instruction.OneLine) ↔
      ∀ entry ∈ entries, entry.effect.OneLine := by
  induction entries generalizing offset with
  | nil => simp [placements]
  | cons entry entries ih =>
      rw [placements, List.forall_mem_append, ih, List.forall_mem_cons, List.forall_mem_map]
      exact and_congr_left fun _ => entry.effect.oneLine_iff setting offset

/-- What a template declares is unbroken in the header of its unit. -/
theorem unbroken_headerOf {kind : Kind} {source : String} {entries : List Entry}
    (h : entries.map Entry.event = Scan.events ⟨kind, setting.interest?⟩ source.toList)
    (address : Address) :
    (∀ i ∈ (headerOf setting address kind entries).imports, Unbroken i) ∧
      ∀ p ∈ (headerOf setting address kind entries).params, Unbroken p.name ∧ Unbroken p.type := by
  have hinline := Scan.events_inline ⟨kind, setting.interest?⟩ source.toList
  rw [← h] at hinline
  constructor
  · intro i hi
    obtain ⟨e, he, hi⟩ := List.mem_flatMap.mp hi
    have := hinline e he
    unfold importsOf at hi
    split at hi
    · rename_i path hbody
      rw [hbody] at this
      rw [List.mem_singleton.mp hi, Text.trimmed, Text.unbroken_ofList]
      intro hmem
      exact this (Text.mem_of_mem_trim hmem)
    · exact absurd hi (by simp)
  · intro p hp
    obtain ⟨e, he, hp⟩ := List.mem_flatMap.mp hp
    have := hinline e he
    unfold paramsOf at hp
    split at hp
    · rename_i declaration param hbody
      rw [hbody] at this
      rw [List.mem_singleton.mp hp]
      exact this
    · exact absurd hp (by simp)

/-- **The entries of a unit are unbroken just when the code that its template
quotes is.** -/
theorem unbroken_writtenOf {kind : Kind} {source : String} {entries : List Entry}
    (h : entries.map Entry.event = Scan.events ⟨kind, setting.interest?⟩ source.toList)
    (name : Name) (root : String) (lastLine : Nat) :
    (∀ w ∈ writtenOf setting (Address.ofName name root) kind lastLine entries, Unbroken w.text) ↔
      ∀ entry ∈ entries, entry.effect.OneLine := by
  obtain ⟨himports, hparams⟩ := unbroken_headerOf h (Address.ofName name root)
  have hframe := Dialect.unbroken_frame (Address.ofName name root).target
    (Address.unbroken_ofName name root) himports hparams
  rw [List.forall_mem_append] at hframe
  have hplaced {lines : List Line} (hlines : ∀ line ∈ lines, Unbroken line.text) (n : Nat) :
      ∀ w ∈ lines.map
        (Draft.placed (Dialect.spelling (Address.ofName name root).target).indent n),
        Unbroken w.text := by
    rw [List.forall_mem_map]
    intro line hline
    rw [Draft.unbroken_placed (unbroken_indent _)]
    exact hlines line hline
  -- The frame of the unit is unbroken in any case; what remains is the body.
  rw [writtenOf, List.forall_mem_append, List.forall_mem_append,
    and_iff_left (hplaced hframe.2 lastLine), and_iff_right (hplaced hframe.1 1),
    ← oneLine_placements setting 0]
  constructor
  · intro hall placed hmem
    rw [← placed.unbroken_written (Address.ofName name root).target]
    intro w hw
    exact hall w (List.mem_flatMap_of_mem hmem hw)
  · intro hall w hw
    obtain ⟨placed, hmem, hw⟩ := List.mem_flatMap.mp hw
    exact (placed.unbroken_written _).mpr (hall placed hmem) w hw

/-! ## The line map -/

/-- **The line map of a unit is exact just when no code that its template
quotes has a newline where it is quoted.** The unit is written entry by entry,
as the events of its template say, and the line map has the template line of
each entry. It has as many entries as the code has lines, and each line of the
code has the template line of the entry that it belongs to, if every entry is
one line, and not otherwise. -/
theorem lineMap_exact_iff (setting : Setting) (linker : Linker σ) (name : Name)
    (root source : String) (s : σ) (unit : SourceUnit)
    (h : ((generate setting linker (Address.ofName name root) source).run s).1 = .ok unit) :
    ∃ (entries : List Entry) (written : List Draft.Written),
      Generated setting linker (Address.ofName name root) source entries unit ∧
      written = writtenOf setting (Address.ofName name root) name.kind
        (1 + source.toList.count '\n') entries ∧
      Text.lines unit.code.toList = (Draft.attributed written).map Prod.fst ∧
      (unit.lineMap.length = (Text.lines unit.code.toList).length ↔
        ∀ entry ∈ entries, entry.effect.OneLine) ∧
      (unit.lineMap.lines = (Draft.attributed written).map Prod.snd ↔
        ∀ entry ∈ entries, entry.effect.OneLine) := by
  obtain ⟨entries, hunit⟩ := generated h
  have hunbroken := unbroken_writtenOf hunit.events name root (1 + source.toList.count '\n')
  refine ⟨entries, _, hunit, rfl, ?_, ?_, ?_⟩
  · rw [hunit.code]
    exact (Draft.attributed_lines _).symm
  · rw [LineMap.length, hunit.lineMap, hunit.code, List.length_map]
    exact (Draft.length_eq_lines_iff _).trans hunbroken
  · rw [hunit.lineMap]
    exact (Draft.templateLines_eq_iff _).trans hunbroken

/-- For a page of three lines the line map is exact just when its code is on one
line. -/
theorem lineMap_exact_iff_page :
    ∃ unit, ((generate {} solitary (Address.ofName ⟨"page.stn"⟩ "g") "a\n$\x7bb\x7d\n!\x7bc;\x7d").run
        ()).1 = .ok unit ∧
      ∃ entries : List Entry,
        Generated {} solitary (Address.ofName ⟨"page.stn"⟩ "g") "a\n$\x7bb\x7d\n!\x7bc;\x7d" entries
          unit ∧
        (unit.lineMap.length = (Text.lines unit.code.toList).length ↔
          ∀ entry ∈ entries, entry.effect.OneLine) := by
  obtain ⟨unit, h⟩ : ∃ unit, ((generate {} solitary (Address.ofName ⟨"page.stn"⟩ "g")
      "a\n$\x7bb\x7d\n!\x7bc;\x7d").run ()).1 = .ok unit := ⟨_, rfl⟩
  obtain ⟨entries, -, hunit, -, -, hlength, -⟩ :=
    lineMap_exact_iff {} solitary ⟨"page.stn"⟩ "g" "a\n$\x7bb\x7d\n!\x7bc;\x7d" () unit h
  exact ⟨unit, h, entries, hunit, hlength⟩

/-- A statement over two lines makes the line map shorter than the code. -/
theorem lineMap_short_of_statement :
    ∃ unit, ((generate {} solitary (Address.ofName ⟨"page.stn"⟩ "stencil.generated")
        "!\x7ba\nb\x7d").run ()).1 = .ok unit ∧
      unit.lineMap.length ≠ (Text.lines unit.code.toList).length := by
  obtain ⟨unit, h⟩ : ∃ unit, ((generate {} solitary (Address.ofName ⟨"page.stn"⟩
      "stencil.generated") "!\x7ba\nb\x7d").run ()).1 = .ok unit := ⟨_, rfl⟩
  refine ⟨unit, h, ?_⟩
  obtain ⟨entries, hunit⟩ := generated h
  rw [LineMap.length, hunit.lineMap, hunit.code, List.length_map, Ne, Draft.length_eq_lines_iff]
  intro hall
  have honeLine := (unbroken_writtenOf hunit.events ⟨"page.stn"⟩ "stencil.generated" _).mp hall
  have hstatement : (⟨2, 0, .statement ⟨2, "a\nb"⟩⟩ : Event) ∈ entries.map Entry.event := by
    rw [hunit.events]
    decide +kernel
  obtain ⟨entry, hentry, hevent⟩ := List.mem_map.mp hstatement
  have heffect : entry.effect = .code (.statement "a\nb") :=
    (hunit.gives entry hentry).of_instruction (by rw [hevent]; rfl)
  have hone := honeLine entry hentry
  rw [heffect] at hone
  exact absurd hone (by decide)

end Templating.Generation
