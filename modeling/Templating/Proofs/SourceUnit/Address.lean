import Templating.Proofs.Dialect.OneLine
import Templating.Proofs.Text.Joined

/-!
# Addresses as paths

The address that a template is given is made of words: of segments that are plain
and not empty. Words can be joined with any separator that is not plain and told
apart again, so an address is known by its identifier, by its path in the code that
calls it, and by its files.
-/

namespace Templating.Address

/-- Plain characters, at least one. -/
def IsWord (segment : String) : Prop :=
  segment ≠ "" ∧ ∀ c ∈ segment.toList, isPlain c = true

/-- The segments of an address, those of the package first. -/
def segments (a : Address) : List String :=
  a.package ++ [a.unitName]

theorem segments_ne_nil (a : Address) : a.segments ≠ [] := by
  simp [segments]

/-- What is not plain is not in a word. -/
theorem IsWord.not_mem {segment : String} (h : IsWord segment) {c : Char} (hc : isPlain c = false) :
    c ∉ segment.toList := by
  intro hmem
  rw [h.2 c hmem] at hc
  cases hc

theorem unitName_ofName (name : Name) (root : String) :
    (ofName name root).unitName = "Stn" ++ (plain name.stem ++ "Generated") :=
  String.append_assoc ..

/-- **The address of a template is made of words.** -/
theorem isWord_ofName (name : Name) (root : String) :
    ∀ segment ∈ (ofName name root).segments, IsWord segment := by
  intro segment hsegment
  refine ⟨?_, isPlain_ofName name root segment hsegment⟩
  rcases List.mem_append.mp hsegment with hpackage | hunit
  · exact of_decide_eq_true (List.mem_filter.mp hpackage).2
  · rw [List.mem_singleton.mp hunit, unitName_ofName]
    intro hempty
    exact absurd (String.append_eq_empty_iff.mp hempty).1 (by decide)

/-- An address of words is known by its segments joined. -/
theorem qualified_inj {a b : Address} (ha : ∀ segment ∈ a.segments, IsWord segment)
    (hb : ∀ segment ∈ b.segments, IsWord segment) {separator : String} {c : Char}
    (hseparator : separator.toList.head? = some c) (hc : isPlain c = false) :
    a.qualified separator = b.qualified separator ↔ a.segments = b.segments := by
  constructor
  · intro h
    exact Text.intercalate_string_injective hseparator (fun _ hx => (ha _ hx).not_mem hc)
      (fun _ hy => (hb _ hy).not_mem hc) a.segments_ne_nil b.segments_ne_nil h
  · exact congrArg (String.intercalate separator)

end Templating.Address
