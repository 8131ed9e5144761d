import Templating.Proofs.Scan.Blind
import Templating.Proofs.Scan.Turn
import Templating.Proofs.Text.Bytes

/-!
# What the markup remembers

Two things about the markup are used long after they happened. An attribute notes
the byte offset at which its value begins, and this stays a place between two
characters. And a `<` or a `/` is still pending when the next character comes, since
nothing that lets go of pending text is done at one.
-/

namespace Templating.Scan

open Templating.Markup
open Text (byteSize IsAscii)

/-! ## Where values begin -/

/-- The value has begun between two characters of what has been read, if it has begun
and not ended. -/
def StartNoted (before : List Char) (a : Attribute) : Prop :=
  a.value = .begun → ∃ since behind, before = since ++ behind ∧ a.valueStart = byteSize behind

/-- So have the values of all attributes. -/
def Noted (before : List Char) (elements : List Element) : Prop :=
  ∀ e ∈ elements, ∀ a ∈ e.attributes, StartNoted before a

namespace Noted

variable {before : List Char} {elements : List Element} {e : Element} {s : State}

theorem read (h : Noted before elements) (c : Char) : Noted (c :: before) elements := by
  intro e he a ha hbegun
  obtain ⟨since, behind, hbefore, hstart⟩ := h e he a ha hbegun
  exact ⟨c :: since, behind, by rw [hbefore, List.cons_append], hstart⟩

theorem tail (h : Noted before elements) : Noted before elements.tail :=
  fun e he => h e (List.mem_of_mem_tail he)

theorem cons (h : Noted before elements) (he : ∀ a ∈ e.attributes, StartNoted before a) :
    Noted before (e :: elements) :=
  List.forall_mem_cons.mpr ⟨he, h⟩

theorem of_not_begun {a : Attribute} (h : a.value ≠ .begun) : StartNoted before a :=
  fun hbegun => absurd hbegun h

theorem setCurrent (he : ∀ a ∈ e.attributes, StartNoted before a) {a : Attribute}
    (ha : StartNoted before a) : ∀ b ∈ (e.setCurrent a).attributes, StartNoted before b := by
  intro b hb
  rcases List.mem_append.mp hb with hb | hb
  · exact he b (List.dropLast_subset _ hb)
  · rwa [List.mem_singleton.mp hb]

theorem completeOpening (h : Noted before s.elements)
    (he : ∀ a ∈ e.attributes, StartNoted before a) (width : Nat) (selfClosing : Bool) :
    Noted before (s.completeOpening e width selfClosing).elements := by
  have hopened : Noted before
      ((((s.flush width).keep width).setElement { e with opened := true }).emit
        (.elementOpened { e with opened := true })).elements := by
    rw [State.emit_elements]
    refine cons ?_ he
    simpa using h.tail
  unfold State.completeOpening
  simp only
  split
  · exact hopened.tail
  · exact hopened

theorem quote (h : Noted s.before s.elements) (hposition : s.position = byteSize s.before)
    (he : ∀ a ∈ e.attributes, StartNoted s.before a) (interest : Interest) :
    Noted s.before (s.quote interest e).elements := by
  unfold State.quote
  split
  · exact h
  · rename_i a hcurrent
    split
    · -- The place behind the quote is noted.
      have hset : Noted s.before (s.setElement
          (e.setCurrent { a with value := .begun, valueStart := s.position })).elements :=
        cons h.tail (setCurrent he fun _ => ⟨[], s.before, rfl, hposition⟩)
      simp only
      split
      · simpa [State.settle] using hset
      · exact hset
    · exact cons h.tail (setCurrent he (of_not_begun (by simp)))
    · exact h

theorem followMarkup (h : Noted s.before s.elements) (hposition : s.position = byteSize s.before)
    (interest : Interest) (c : Char) (after : List Char) :
    Noted s.before (s.followMarkup interest c after).elements := by
  unfold State.followMarkup
  split
  · unfold State.beginElement
    split
    · exact cons h (by simp)
    · exact h
  · split
    · exact h
    · rename_i e es helements
      have he : ∀ a ∈ e.attributes, StartNoted s.before a := h e (by simp [helements])
      split
      · unfold State.endElement
        split
        · simp only
          split
          · exact h
          · exact h.tail
        · exact h
      · split
        · exact h
        · split
          · split
            · exact h
            · unfold State.beginAttribute
              split
              · exact h
              · refine cons h.tail fun a ha => ?_
                rcases List.mem_append.mp ha with ha | ha
                · exact he a ha
                · rw [List.mem_singleton.mp ha]
                  exact of_not_begun (by simp)
          · exact h.quote hposition he interest
          · split
            · exact h
            · unfold State.endTag
              split
              · exact h.completeOpening he 2 true
              · split
                · exact h
                · exact h.completeOpening he 1 false
          · exact h

/-- What does not look at the elements leaves them alone. -/
theorem elements_of_blind (op : State → State)
    (hop : ∀ es b, op (s.amid [] es b) = (op s).amid [] es b) :
    (op s).elements = s.elements := by
  have hself : s.amid [] s.elements s.closingTag = s := by
    unfold State.amid
    rw [List.append_nil]
  have hsame := hop s.elements s.closingTag
  rw [hself] at hsame
  rw [hsame]
  rfl

theorem readChar (h : Noted s.before s.elements) (hposition : s.position = byteSize s.before)
    (setting : Setting) (c : Char) (after : List Char) :
    Noted s.before (s.readChar setting c after).elements := by
  have blind (op : State → State) (hop : ∀ es b, op (s.amid [] es b) = (op s).amid [] es b) :
      Noted s.before (op s).elements := by
    rwa [elements_of_blind op hop]
  by_cases hfollowed : s.top = .text ∧ Interest.active? setting.interest? ≠ none
  · -- In text the markup may be followed.
    have htext : s.readChar setting c after = s.readText setting c after := by
      unfold State.readChar
      rw [hfollowed.1]
    rw [htext]
    unfold State.readText
    split
    · rename_i d _
      exact blind (·.obey d) fun es b => s.amid_obey [] es b d
    · split
      · exact blind (·.parenthesisBegins) fun es b => s.amid_parenthesisBegins [] es b
      · exact blind (·.parenthesisEnds setting.kind) fun es b => s.amid_parenthesisEnds [] es b _
      · exact h.followMarkup hposition _ _ _
      · exact h
  · refine blind (·.readChar setting c after) fun es b =>
      s.amid_readChar [] es b setting c after ?_
    by_cases htext : s.top = .text
    · exact Or.inr (Classical.not_not.mp fun hactive => hfollowed ⟨htext, hactive⟩)
    · exact Or.inl htext

theorem step (h : Noted s.before s.elements) (hposition : s.position = byteSize s.before)
    (hl : Layered s.stack) (setting : Setting) (c : Char) (after : List Char) :
    Noted (s.step setting c after).before (s.step setting c after).elements := by
  have hread : Noted (s.advance c).before ((s.advance c).readChar setting c after).elements := by
    refine readChar (h.read c) ?_ setting c after
    show s.position + c.utf8Size = c.utf8Size + byteSize s.before
    omega
  rw [State.step_before hl]
  unfold State.step State.endLine
  split
  · show Noted _ (State.emit _ .lineEnd).elements
    rw [State.emit_elements]
    exact hread
  · exact hread

end Noted

/-! ## What is still pending -/

/-- What a directive ends with. -/
theorem exists_last (d : Directive) : ∃ x xs, d.word.toList.reverse = x :: xs ∧ IsAscii x ∧
    x ≠ '<' ∧ x ≠ '/' := by
  have hall : ∀ d ∈ Directive.all, (d.word.toList.reverse.head?.any fun x =>
      decide (IsAscii x ∧ x ≠ '<' ∧ x ≠ '/')) = true := by
    decide +kernel
  have hlast := hall d d.mem_all
  cases hword : d.word.toList.reverse with
  | nil =>
      rw [hword] at hlast
      cases hlast
  | cons x xs =>
      rw [hword] at hlast
      exact ⟨x, xs, rfl, of_decide_eq_true hlast⟩

/-- Nothing is found behind a character that no directive ends with. -/
theorem endingAt?_of_last {c : Char} (hc : ¬ IsAscii c ∨ c = '<' ∨ c = '/')
    (before after : List Char) : Directive.endingAt? (c :: before) after = none := by
  have hnone : Directive.all.find? (Directive.ends (c :: before)) = none := by
    rw [List.find?_eq_none]
    intro d _ hends
    obtain ⟨x, xs, hword, hascii, hopen, hslash⟩ := exists_last d
    obtain ⟨rest, hrest⟩ := List.isPrefixOf_iff_prefix.mp hends
    rw [hword] at hrest
    obtain rfl := (List.cons.inj hrest).1
    rcases hc with hc | hc | hc
    · exact hc hascii
    · exact hopen hc
    · exact hslash hc
  unfold Directive.endingAt?
  rw [hnone]

section Pending

variable {s : State} {c : Char} (hc : c = '<' ∨ c = '/') (hpending : s.pending ≠ [])

include hc hpending

theorem pending_followMarkup (interest : Interest) (after : List Char) :
    (s.followMarkup interest c after).pending ≠ [] := by
  unfold State.followMarkup
  split
  · unfold State.beginElement
    split <;> exact hpending
  · split
    · exact hpending
    · split
      · unfold State.endElement
        split
        · simp only
          split
          · exact hpending
          · -- The last two characters are still pending.
            rw [State.emit_pending]
            simpa [State.keep] using hpending
        · exact hpending
      · split
        · exact hpending
        · split
          · exact absurd hc (by decide)
          · exact absurd hc (by decide)
          · exact absurd hc (by decide)
          · exact hpending

theorem pending_readText {front : List Char} (hbefore : s.before = c :: front)
    (setting : Setting) (after : List Char) : (s.readText setting c after).pending ≠ [] := by
  unfold State.readText
  rw [hbefore, endingAt?_of_last (Or.inr hc)]
  simp only
  split
  · exact absurd hc (by decide)
  · exact absurd hc (by decide)
  · exact pending_followMarkup hc hpending _ after
  · exact hpending

theorem pending_readCode (after : List Char) : (s.readCode c after).pending ≠ [] := by
  unfold State.readCode
  split
  · exact absurd hc (by decide)
  · exact absurd hc (by decide)
  · exact absurd hc (by decide)
  · exact absurd hc (by decide)
  · exact absurd hc (by decide)
  · exact absurd hc (by decide)
  · unfold State.openAngle
    split
    · split
      · rwa [State.become_pending]
      · exact hpending
    · exact hpending
  · exact absurd hc (by decide)
  · exact hpending

/-- **A mark of a tag is pending** once it has been read. -/
theorem pending_readChar {front : List Char} (hbefore : s.before = c :: front)
    (setting : Setting) (after : List Char) : (s.readChar setting c after).pending ≠ [] := by
  unfold State.readChar
  split
  · rw [hbefore]
    rcases hc with rfl | rfl <;> exact hpending
  · unfold State.readString
    split
    · rwa [State.become_pending]
    · split
      · exact absurd hc (by decide)
      · exact absurd hc (by decide)
      · exact hpending
  · rcases hc with rfl | rfl <;> exact hpending
  · rcases hc with rfl | rfl <;> exact hpending
  · rcases hc with rfl | rfl <;> exact hpending
  all_goals first
    | exact pending_readText hc hpending hbefore setting after
    | exact pending_readCode hc hpending after

end Pending

theorem pending_step {c : Char} (hc : c = '<' ∨ c = '/') (s : State) (setting : Setting)
    (after : List Char) : (s.step setting c after).pending ≠ [] := by
  have hread := @pending_readChar (s.advance c) c hc (List.cons_ne_nil _ _) s.before rfl setting after
  unfold State.step State.endLine
  split
  · show (State.emit _ .lineEnd).pending ≠ []
    rwa [State.emit_pending]
  · exact hread

end Templating.Scan
