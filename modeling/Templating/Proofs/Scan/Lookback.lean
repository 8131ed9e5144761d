import Mathlib.Data.List.Infix
import Templating.Proofs.Template.Tree
import Templating.Scan.Directive

/-!
# Looking back at directives

The scanner finds a directive when the text so far ends with its word. Every
word begins with a marker and has no other one in it, so all that matters of
the text so far is what stands since its last marker. From this follow the
three facts that a reading of a template needs: a word that is written is
found at its last character, nothing is found in the middle of a word, and
nothing is found in plain text, even where it follows a directive directly.
-/

namespace Templating.Directive

open Template (Plain)

/-- The characters that directives begin with. -/
def isMarker (c : Char) : Bool :=
  c == '@' || c == '$' || c == '!' || c == '<'

/-- What stands since the last marker, that one included, last character
first. -/
def recent : List Char → List Char
  | [] => []
  | c :: before => if isMarker c then [c] else c :: recent before

variable {before u r text rest : List Char} {c : Char} {d : Directive}

/-- A word is a marker and characters that are none. -/
theorem exists_word (d : Directive) : ∃ k t, d.word.toList = k :: t ∧ isMarker k = true ∧
    ∀ c ∈ t, isMarker c = false := by
  have hall : ∀ d ∈ all, (d.word.toList.head?.any isMarker &&
      d.word.toList.tail.all fun c => !isMarker c) = true := by
    decide +kernel
  have h := hall d (mem_all d)
  cases hw : d.word.toList with
  | nil => simp [hw] at h
  | cons k t =>
      rw [hw] at h
      simp only [List.head?_cons, Option.any_some, List.tail_cons, Bool.and_eq_true,
        List.all_eq_true, Bool.not_eq_true'] at h
      exact ⟨k, t, rfl, h.1, h.2⟩

/-- Only `@else` can be continued to another word, which is `@elseif`. -/
theorem eq_of_prefix {d e : Directive} (h : e.word.toList <+: d.word.toList) :
    e = d ∨ e = conditionElse ∧ d = conditionElseIf := by
  have hall : ∀ d ∈ all, ∀ e ∈ all, e.word.toList.isPrefixOf d.word.toList = true →
      e = d ∨ e = conditionElse ∧ d = conditionElseIf := by
    decide +kernel
  exact hall d (mem_all d) e (mem_all e) (List.isPrefixOf_iff_prefix.mpr h)

theorem word_injective {d e : Directive} (h : d.word.toList = e.word.toList) : d = e := by
  rcases eq_of_prefix (d := e) (e := d) (h ▸ List.prefix_refl _) with h' | ⟨rfl, rfl⟩
  · exact h'
  · exact absurd h (by decide +kernel)

/-! ## Since the last marker -/

theorem recent_isPrefix (before : List Char) : recent before <+: before := by
  induction before with
  | nil => exact List.prefix_refl _
  | cons c before ih =>
      rw [recent]
      split
      · exact ⟨before, rfl⟩
      · exact List.prefix_cons_inj c |>.mpr ih

theorem recent_append (hr : ∀ c ∈ r, isMarker c = false) :
    recent (r ++ before) = r ++ recent before := by
  induction r with
  | nil => rfl
  | cons c r ih =>
      obtain ⟨hc, hr⟩ := List.forall_mem_cons.mp hr
      rw [List.cons_append, recent, if_neg (by simp [hc]), ih hr]
      rfl

theorem recent_append_marker (hr : ∀ c ∈ r, isMarker c = false) (hc : isMarker c = true) :
    recent (r ++ c :: before) = r ++ [c] := by
  rw [recent_append hr, recent, if_pos hc]

/-- The last marker of a text, if it has one, and what stands behind it. -/
theorem exists_last_marker (u : List Char) : (∀ c ∈ u, isMarker c = false) ∨
    ∃ front k back, u = front ++ k :: back ∧ isMarker k = true ∧
      ∀ c ∈ back, isMarker c = false := by
  induction u using List.reverseRecOn with
  | nil => exact Or.inl (by simp)
  | append_singleton u c ih =>
      by_cases hc : isMarker c = true
      · exact Or.inr ⟨u, c, [], rfl, hc, by simp⟩
      · rw [Bool.not_eq_true] at hc
        rcases ih with hu | ⟨front, k, back, rfl, hk, hback⟩
        · refine Or.inl ?_
          intro x hx
          rcases List.mem_append.mp hx with hx | hx
          · exact hu x hx
          · rw [List.mem_singleton.mp hx, hc]
        · refine Or.inr ⟨front, k, back ++ [c], by simp, hk, fun x hx => ?_⟩
          rcases List.mem_append.mp hx with hx | hx
          · exact hback x hx
          · rw [List.mem_singleton.mp hx, hc]

/-- **A directive is found by what stands since the last marker**, and by
nothing else. -/
theorem ends_iff : ends before d = true ↔ recent before = d.word.toList.reverse := by
  obtain ⟨k, t, hw, hk, ht⟩ := exists_word d
  rw [ends, List.isPrefixOf_iff_prefix]
  constructor
  · rintro ⟨rest, rfl⟩
    rw [hw, List.reverse_cons, List.append_assoc]
    exact recent_append_marker (by simpa using ht) hk
  · intro h
    rw [← h]
    exact recent_isPrefix before

theorem endingAt?_eq_none (h : ∀ d, ends before d = true → d = conditionElse ∧
    rest.head? = some 'i') : endingAt? before rest = none := by
  unfold endingAt?
  cases hf : all.find? (ends before) with
  | none => rfl
  | some d =>
      obtain ⟨rfl, hi⟩ := h d (List.find?_some hf)
      simp [hi]

theorem ends_of_endingAt? {d : Directive} (h : endingAt? before rest = some d) :
    ends before d = true := by
  unfold endingAt? at h
  split at h
  · rename_i hfound
    split at h
    · cases h
    · cases h
      exact List.find?_some hfound
  · exact List.find?_some h

/-! ## Words -/

theorem elseIf_chars :
    conditionElseIf.word.toList = conditionElse.word.toList ++ ['i', 'f'] := by
  decide +kernel

/-- A word that is written is found at its last character. -/
theorem endingAt?_word (d : Directive) (before : List Char)
    (h : d = conditionElse → rest.head? ≠ some 'i') :
    endingAt? (d.word.toList.reverse ++ before) rest = some d := by
  have hends : ends (d.word.toList.reverse ++ before) d = true := by
    rw [ends, List.isPrefixOf_iff_prefix]
    exact List.prefix_append _ _
  have honly (e : Directive) (he : ends (d.word.toList.reverse ++ before) e = true) : e = d := by
    rw [ends_iff, ends_iff.mp hends] at he
    exact (word_injective (List.reverse_injective he)).symm
  have hfind : all.find? (ends (d.word.toList.reverse ++ before)) = some d := by
    cases hf : all.find? (ends (d.word.toList.reverse ++ before)) with
    | none => exact absurd hends (List.find?_eq_none.mp hf d (mem_all d))
    | some e => rw [honly e (List.find?_some hf)]
  unfold endingAt?
  rw [hfind]
  by_cases hd : d = conditionElse
  · subst hd
    simp [h rfl]
  · cases d <;> simp_all

/-- Nothing is found in the middle of a word. -/
theorem endingAt?_partial (before : List Char) {v : List Char} (hu : u ≠ [])
    (h : d.word.toList = u ++ c :: v) : endingAt? (u.reverse ++ before) (c :: rest) = none := by
  obtain ⟨k, t, hw, hk, ht⟩ := exists_word d
  obtain ⟨k', t', rfl⟩ := List.exists_cons_of_ne_nil hu
  rw [hw, List.cons_append] at h
  obtain ⟨rfl, rfl⟩ := List.cons.inj h
  -- What has been read of the word begins with its marker, so it is all that counts.
  have hrecent : recent ((k :: t').reverse ++ before) = (k :: t').reverse := by
    rw [List.reverse_cons, List.append_assoc]
    exact recent_append_marker (fun x hx => ht x (by simp [List.mem_reverse.mp hx])) hk
  refine endingAt?_eq_none fun e he => ?_
  rw [ends_iff, hrecent] at he
  have he' := (List.reverse_injective he).symm
  have hprefix : e.word.toList <+: d.word.toList := ⟨c :: v, by rw [he', hw]; rfl⟩
  rcases eq_of_prefix hprefix with rfl | ⟨rfl, rfl⟩
  · rw [he', List.cons.injEq] at hw
    exact absurd hw.2 (by simp)
  · refine ⟨rfl, ?_⟩
    rw [← List.cons_append, ← he', elseIf_chars] at hw
    rw [(List.cons.inj (List.append_cancel_left hw)).1]
    rfl

/-! ## Plain text -/

theorem not_infix_of_plain (h : Plain text) (d : Directive) : ¬ d.word.toList <:+: text := by
  have hall : ∀ d ∈ all, d.word.toList.head? = some '@' ∨
      d.word ∈ ["$\x7b", "$unsafe\x7b", "!\x7b", "<%--"] := by
    decide +kernel
  intro hd
  rcases hall d (mem_all d) with hat | hmem
  · exact h.1 (hd.subset (List.mem_of_head? hat))
  · exact h.2 _ hmem hd

/-- No word can go on from `before` into a text that begins with `next?`. -/
def Firm (before : List Char) (next? : Option Char) : Prop :=
  ∀ c, next? = some c → isMarker c = false →
    ∀ d : Directive, ¬ (recent before).reverse ++ [c] <+: d.word.toList

theorem Firm.of_marker (hc : isMarker c = true) : Firm before (some c) := by
  intro x hx hc'
  rw [← Option.some.inj hx, hc] at hc'
  exact absurd hc' (by simp)

theorem Firm.none : Firm before none := by
  rintro c h
  exact absurd h (by simp)

theorem Firm.start (next? : Option Char) : Firm [] next? := by
  rintro c rfl hc d ⟨rest, hd⟩
  obtain ⟨k, t, hw, hk, -⟩ := exists_word d
  rw [hw] at hd
  obtain ⟨rfl, -⟩ := List.cons.inj hd
  rw [hc] at hk
  exact absurd hk (by simp)

/-- The character stands in no word. -/
def IsForeign (c : Char) : Prop :=
  ∀ d ∈ all, c ∉ d.word.toList

instance (c : Char) : Decidable (IsForeign c) :=
  inferInstanceAs (Decidable (∀ d ∈ all, c ∉ d.word.toList))

/-- Behind a character that stands in no word anything may follow. -/
theorem Firm.of_foreign (hc : IsForeign c) (before : List Char) (next? : Option Char) :
    Firm (c :: before) next? := by
  rintro x rfl - d hd
  refine hc d (mem_all d) (hd.subset ?_)
  rw [recent]
  split <;> simp

/-- Behind a word that none continues anything may follow; behind `@else`
anything but `i`. -/
theorem Firm.of_word (d : Directive) (before : List Char) {next? : Option Char}
    (h : d = conditionElse → next? ≠ some 'i') : Firm (d.word.toList.reverse ++ before) next? := by
  rintro x rfl - e he
  have hends : ends (d.word.toList.reverse ++ before) d = true := by
    rw [ends, List.isPrefixOf_iff_prefix]
    exact List.prefix_append _ _
  rw [ends_iff.mp hends, List.reverse_reverse] at he
  obtain ⟨rest, hrest⟩ := he
  rcases eq_of_prefix (d := e) (e := d) ⟨x :: rest, by rw [← hrest]; simp⟩ with rfl | ⟨rfl, rfl⟩
  · have := congrArg List.length hrest
    simp at this
  · rw [elseIf_chars, List.append_assoc] at hrest
    obtain ⟨rfl, -⟩ := List.cons.inj (List.append_cancel_left hrest)
    exact h rfl rfl

/-- No directive is found at any character of the text. -/
def Quiet (before text rest : List Char) : Prop :=
  ∀ u v, text = u ++ v → u ≠ [] → endingAt? (u.reverse ++ before) (v ++ rest) = none

theorem Quiet.head (h : Quiet before (c :: text) rest) :
    endingAt? (c :: before) (text ++ rest) = none := by
  simpa using h [c] text rfl (by simp)

theorem Quiet.tail (h : Quiet before (c :: text) rest) : Quiet (c :: before) text rest := by
  rintro u v rfl -
  simpa using h (c :: u) v rfl (by simp)

/-- No directive is found in the middle of a word. -/
theorem quiet_word (d : Directive) (before : List Char) (h : d.word.toList = text ++ [c]) :
    Quiet before text (c :: rest) := by
  rintro u v rfl hu
  cases v with
  | nil => exact endingAt?_partial before hu (v := []) (h.trans (by simp))
  | cons x v => exact endingAt?_partial before hu (v := v ++ [c]) (h.trans (by simp))

/-- **No directive is found in plain text**, whatever stands before it, as
long as no word goes on into it. -/
theorem quiet_of_plain (h : Plain text) (hfirm : Firm before text.head?) :
    Quiet before text rest := by
  rintro u v rfl hu
  refine endingAt?_eq_none fun d hd => absurd hd ?_
  rw [ends_iff]
  intro hd
  have hplain := not_infix_of_plain h d
  rcases exists_last_marker u with hnone | ⟨front, k, back, rfl, hk, hback⟩
  · -- The word would begin before the text.
    obtain ⟨x, u, rfl⟩ := List.exists_cons_of_ne_nil hu
    refine hfirm x rfl (hnone x (by simp)) d ⟨u, ?_⟩
    rw [recent_append (fun c hc => hnone c (List.mem_reverse.mp hc))] at hd
    simpa using congrArg List.reverse hd
  · -- The word would stand inside the text.
    rw [List.reverse_append, List.reverse_cons, List.append_assoc, List.append_assoc,
      List.singleton_append,
      recent_append_marker (fun c hc => hback c (List.mem_reverse.mp hc)) hk] at hd
    refine hplain ⟨front, v, ?_⟩
    rw [← List.reverse_reverse d.word.toList, ← hd]
    simp

end Templating.Directive
