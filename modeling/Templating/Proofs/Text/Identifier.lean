import Templating.Proofs.Text.Trim
import Templating.Text.Letter

/-!
# Identifiers and blanks

The blank characters are few, so they can be gone over. None of them stands in an
identifier.
-/

namespace Templating.Text

/-- The characters from one to another. -/
def between (a b : Char) : List Char :=
  (List.range' a.toNat (b.toNat + 1 - a.toNat)).map Char.ofNat

theorem mem_between {a b c : Char} (hlow : a ≤ c) (hhigh : c ≤ b) : c ∈ between a b := by
  have hlow' : a.toNat ≤ c.toNat := hlow
  have hhigh' : c.toNat ≤ b.toNat := hhigh
  refine List.mem_map.mpr ⟨c.toNat, List.mem_range'_1.mpr ⟨hlow', ?_⟩, Char.ofNat_toNat c⟩
  omega

/-- All blanks. -/
def blanks : List Char :=
  between '\x09' '\x0d' ++ between '\u2000' '\u200a' ++
    [' ', '\u0085', '\u00a0', '\u1680', '\u2028', '\u2029', '\u202f', '\u205f', '\u3000']

theorem mem_blanks {c : Char} (h : isBlank c = true) : c ∈ blanks := by
  have hcontrol : '\x09' ≤ c ∧ c ≤ '\x0d' → c ∈ between '\x09' '\x0d' :=
    fun hc => mem_between hc.1 hc.2
  have hspace : '\u2000' ≤ c ∧ c ≤ '\u200a' → c ∈ between '\u2000' '\u200a' :=
    fun hc => mem_between hc.1 hc.2
  simp only [isBlank, Bool.or_eq_true, Bool.and_eq_true, decide_eq_true_eq, beq_iff_eq] at h
  simp only [blanks, List.mem_append, List.mem_cons]
  grind

theorem isBlank_of_continuesIdentifier {c : Char} (h : continuesIdentifier c = true) :
    isBlank c = false := by
  have hblanks : (blanks.all fun b => !continuesIdentifier b) = true := by decide +kernel
  by_contra hblank
  have hc := List.all_eq_true.mp hblanks c (mem_blanks (by simpa using hblank))
  rw [h] at hc
  cases hc

theorem continues_of_isIdentifier {name : List Char} (h : isIdentifier name = true) :
    ∀ c ∈ name, continuesIdentifier c = true := by
  cases name with
  | nil => cases h
  | cons c cs =>
      obtain ⟨hbegins, hcontinues⟩ := Bool.and_eq_true_iff.mp h
      refine List.forall_mem_cons.mpr ⟨?_, List.all_eq_true.mp hcontinues⟩
      unfold beginsIdentifier at hbegins
      unfold continuesIdentifier
      rcases Bool.or_eq_true_iff.mp hbegins with hletter | hunderscore
      · rw [hletter, Bool.true_or, Bool.true_or]
      · rw [hunderscore, Bool.or_true]

theorem trim_of_isIdentifier {name : List Char} (h : isIdentifier name = true) :
    trim name = name :=
  trim_of_solid fun c hc => isBlank_of_continuesIdentifier (continues_of_isIdentifier h c hc)

end Templating.Text
