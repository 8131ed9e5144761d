import Mathlib.Data.List.Basic
import Templating.Proofs.Generation.Written

/-!
# Line maps ascend

Events are numbered by the ends of lines before them, and a unit is written in the
order of its events. So the template lines of a unit ascend, from the first line of
its template, where its prologue comes from, to the last, where its epilogue does.
-/

namespace Templating

/-- The numbers ascend, none before `low` and none after `high`. -/
structure Ascends (low high : Nat) (numbers : List Nat) : Prop where
  pairwise : numbers.Pairwise (· ≤ ·)
  within : ∀ n ∈ numbers, low ≤ n ∧ n ≤ high

namespace Ascends

variable {low mid high : Nat} {numbers later : List Nat}

theorem nil (low high : Nat) : Ascends low high [] where
  pairwise := .nil
  within n hn := by cases hn

theorem replicate (count n : Nat) : Ascends n n (List.replicate count n) where
  pairwise := List.pairwise_replicate.mpr (.inr (Nat.le_refl n))
  within m hm := by rw [List.eq_of_mem_replicate hm]; exact ⟨Nat.le_refl n, Nat.le_refl n⟩

theorem mono (h : Ascends low mid numbers) (hhigh : mid ≤ high) : Ascends low high numbers where
  pairwise := h.pairwise
  within n hn := ⟨(h.within n hn).1, Nat.le_trans (h.within n hn).2 hhigh⟩

theorem append (h : Ascends low mid numbers) (h' : Ascends mid high later) (hlow : low ≤ mid)
    (hhigh : mid ≤ high) : Ascends low high (numbers ++ later) where
  pairwise := by
    refine List.pairwise_append.mpr ⟨h.pairwise, h'.pairwise, ?_⟩
    intro m hm n hn
    exact Nat.le_trans (h.within m hm).2 (h'.within n hn).1
  within n hn := by
    rcases List.mem_append.mp hn with hn | hn
    · exact ⟨(h.within n hn).1, Nat.le_trans (h.within n hn).2 hhigh⟩
    · exact ⟨Nat.le_trans hlow (h'.within n hn).1, (h'.within n hn).2⟩

end Ascends

namespace Generation

open Scan (lineEnds NumberedFrom)

variable {σ : Type} {setting : Setting} {linker : Linker σ}

/-- The lines that an entry writes all come from the line of its event. -/
theorem templateLines_entry (setting : Setting) (t : Target) (offset : Nat) (entry : Entry) :
    ∃ count, (((entry.effect.instructions setting offset).map
        (⟨entry.event.line, entry.event.depth + Dialect.bodyLevel, ·⟩ : _ → Placed)).flatMap
          (Placed.written t)).map Draft.Written.templateLine =
      List.replicate count entry.event.line := by
  refine ⟨_, List.eq_replicate_of_mem ?_⟩
  intro n hn
  obtain ⟨w, hw, rfl⟩ := List.mem_map.mp hn
  obtain ⟨placed, hplaced, hw⟩ := List.mem_flatMap.mp hw
  obtain ⟨i, -, rfl⟩ := List.mem_map.mp hplaced
  obtain ⟨line, -, rfl⟩ := List.mem_map.mp hw
  rfl

/-- **What numbered events write ascends with their lines.** -/
theorem ascends_placements (setting : Setting) (t : Target) (offset : Nat) (entries : List Entry)
    {first : Nat} (h : NumberedFrom first (entries.map Entry.event)) :
    Ascends first (first + lineEnds (entries.map Entry.event))
      (((placements setting offset entries).flatMap (Placed.written t)).map
        Draft.Written.templateLine) := by
  induction entries generalizing offset first with
  | nil => exact .nil _ _
  | cons entry entries ih =>
      have hhead : entry.event.line = first := h.head
      have hends : lineEnds ((entry :: entries).map Entry.event) =
          lineEnds [entry.event] + lineEnds (entries.map Entry.event) :=
        Scan.lineEnds_append [entry.event] _
      obtain ⟨count, hcount⟩ := templateLines_entry setting t offset entry
      rw [placements, List.flatMap_append, List.map_append, hcount, hhead, hends, ← Nat.add_assoc]
      -- The entry may end a line, and then the rest begins on the next.
      have hentry : Ascends first (first + lineEnds [entry.event]) (List.replicate count first) :=
        (Ascends.replicate count first).mono (Nat.le_add_right _ _)
      exact hentry.append (ih _ h.tail) (Nat.le_add_right _ _) (Nat.le_add_right _ _)

/-- **The line map of a unit ascends**: it has the first line of the template for the
whole prologue, and no line that the template does not have. -/
theorem ascends_lineMap {address : Address} {source : String} {s : σ} {unit : SourceUnit}
    (h : ((generate setting linker address source).run s).1 = .ok unit) :
    Ascends 1 (1 + source.toList.count '\n') unit.lineMap.lines ∧
    ∃ (header : Dialect.Header) (body : List Draft.Written),
      header.address = address ∧ header.kind = address.kind ∧
      unit.code.toList = Draft.codeOf (((Dialect.spelling address.target).prologue header).map
        (Draft.placed (Dialect.spelling address.target).indent 1) ++ body) ∧
      unit.lineMap.lines =
        List.replicate ((Dialect.spelling address.target).prologue header).length 1 ++
          body.map Draft.Written.templateLine := by
  obtain ⟨entries, hunit⟩ := generated h
  obtain ⟨hnumbered, hends⟩ :=
    Scan.events_numbered ⟨address.kind, setting.interest?⟩ source.toList
  rw [← hunit.events] at hnumbered hends
  have hbody := ascends_placements setting address.target 0 entries hnumbered
  have hframe (lines : List Line) (n : Nat) :
      (lines.map (Draft.placed (Dialect.spelling address.target).indent n)).map
        Draft.Written.templateLine = List.replicate lines.length n := by
    rw [List.map_map, List.map_eq_replicate_iff.mpr]
    intro line _
    rfl
  rw [hends] at hbody
  constructor
  · rw [hunit.lineMap, writtenOf, List.map_append, List.map_append, hframe, hframe]
    have hprologue : Ascends 1 1 (List.replicate
        ((Dialect.spelling address.target).prologue
          (headerOf setting address address.kind entries)).length 1) := .replicate _ _
    exact (hprologue.append hbody (Nat.le_refl 1) (Nat.le_add_right _ _)).append (.replicate _ _)
      (Nat.le_add_right _ _) (Nat.le_refl _)
  · refine ⟨headerOf setting address address.kind entries,
      (placements setting 0 entries).flatMap (Placed.written address.target) ++
        (Dialect.spelling address.target).epilogue.map (Draft.placed
          (Dialect.spelling address.target).indent (1 + source.toList.count '\n')),
      rfl, rfl, ?_, ?_⟩
    · rw [hunit.code, writtenOf, List.append_assoc]
    · rw [hunit.lineMap, writtenOf, List.append_assoc, List.map_append, hframe]

end Generation

end Templating
