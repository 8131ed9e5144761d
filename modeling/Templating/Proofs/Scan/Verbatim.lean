import Templating.Proofs.Scan.Invariant
import Templating.Proofs.Scan.Lookback

/-!
# Text without directives

In a source without directives the scanner only hands out text, a stretch at a
time, and follows the markup. Whatever it follows, every character is handed
out once, in order: what it has handed out and what is pending is always what
it has read.
-/

namespace Templating

namespace Event

/-- The static text that an event hands out. -/
def Body.text? : Body → Option String
  | .text run => some run.text
  | _ => none

/-- The event hands out text, is about the markup, or keeps the books. -/
def Body.isVerbatim : Body → Bool
  | .text _ | .elementOpened _ | .elementClosed _ | .attributeBegun .. | .lineEnd | .headerEnd
  | .complete => true
  | _ => false

/-- The runs of static text in a stream. -/
def runs (es : List Event) : List String :=
  es.filterMap fun e => e.body.text?

theorem runs_append (es fs : List Event) : runs (es ++ fs) = runs es ++ runs fs := by
  unfold runs
  exact List.filterMap_append

end Event

namespace Scan

open Event (runs)
open Directive (endingAt? Quiet)

/-- The scanner is in text, and has handed out what it has read up to what is
pending. -/
structure Verbatim (read : List Char) (s : State) : Prop where
  stack : s.stack = []
  before : s.before = read.reverse
  texts : (runs s.events).flatMap String.toList ++ s.pending.reverse = read
  problems : s.problems = []
  events : ∀ e ∈ s.events, e.body.isVerbatim = true

namespace Verbatim

variable {read text rest after : List Char} {s : State}

theorem start : Verbatim [] {} :=
  ⟨rfl, rfl, rfl, rfl, by simp [State.events, State.signals]⟩

theorem top (h : Verbatim read s) : s.top = .text := by
  rw [State.top, h.stack]

theorem advance (h : Verbatim read s) (c : Char) : Verbatim (read ++ [c]) (s.advance c) := by
  refine ⟨h.stack, ?_, ?_, h.problems, h.events⟩
  · rw [List.reverse_append, ← h.before]
    rfl
  · have htexts := h.texts
    show (runs s.events).flatMap String.toList ++ (c :: s.pending).reverse = read ++ [c]
    rw [List.reverse_cons, ← List.append_assoc, htexts]

theorem markup (h : Verbatim read s) (elements : List Markup.Element) (closingTag : Bool) :
    Verbatim read { s with elements, closingTag } :=
  ⟨h.stack, h.before, h.texts, h.problems, h.events⟩

theorem events_emit (h : Verbatim read s) {body : Event.Body} (hbody : body.isVerbatim = true) :
    ∀ e ∈ (s.emit body).events, e.body.isVerbatim = true :=
  s.forall_emit (P := fun body => body.isVerbatim = true) h.events rfl hbody

theorem runs_emit (s : State) (body : Event.Body) :
    runs (s.emit body).events = runs s.events ++ body.text?.toList := by
  rw [State.emit_events, Event.runs_append]
  congr 1
  unfold State.announcement
  split <;> cases body <;> rfl

/-- Something is said that hands out no text. -/
theorem emit (h : Verbatim read s) {body : Event.Body} (hbody : body.isVerbatim = true)
    (htext : body.text? = none) : Verbatim read (s.emit body) := by
  refine ⟨by rw [State.emit_stack]; exact h.stack, by rw [State.emit_before]; exact h.before, ?_,
    by rw [State.emit_problems]; exact h.problems, h.events_emit hbody⟩
  rw [runs_emit, htext, State.emit_pending]
  simpa using h.texts

/-- Pending text is handed out up to its last characters, which are kept. -/
theorem handOut (h : Verbatim read s) (n : Nat) : Verbatim read ((s.flush n).keep n) := by
  by_cases hdrop : s.pending.drop n = []
  · -- Nothing is said, and what is kept is all there is.
    have hflush : s.flush n = s := by
      unfold State.flush
      rw [if_neg (fun hs => hs.2 hdrop)]
    have hkeep : s.pending.take n = s.pending := by
      have := List.take_append_drop n s.pending
      rwa [hdrop, List.append_nil] at this
    rw [hflush]
    refine ⟨h.stack, h.before, ?_, h.problems, h.events⟩
    show (runs s.events).flatMap String.toList ++ (s.pending.take n).reverse = read
    rw [hkeep]
    exact h.texts
  · have hflush : s.flush n = s.emit (.text (s.slice n)) := by
      unfold State.flush
      rw [if_pos ⟨h.top, hdrop⟩]
    rw [hflush]
    refine ⟨by simpa using h.stack, by simpa using h.before, ?_, ?_, h.events_emit rfl⟩
    · have hpending : (s.slice n).text.toList ++ (s.pending.take n).reverse =
          s.pending.reverse := by
        rw [State.slice, Text.Slice.endingAt, String.toList_ofList, ← List.reverse_append,
          List.take_append_drop]
      show (runs (s.emit _).events).flatMap String.toList ++
        ((s.emit _).pending.take n).reverse = read
      rw [runs_emit, State.emit_pending, List.flatMap_append, List.append_assoc]
      simp only [Event.Body.text?, Option.toList_some, List.flatMap_singleton]
      rw [hpending]
      exact h.texts
    · show (s.emit _).problems = []
      rw [State.emit_problems]
      exact h.problems

/-! ## Following the markup -/

theorem completeOpening (h : Verbatim read s) (e : Markup.Element) (width : Nat)
    (selfClosing : Bool) : Verbatim read (s.completeOpening e width selfClosing) := by
  have hsaid : Verbatim read ((((s.flush width).keep width).setElement
      { e with opened := true }).emit (.elementOpened { e with opened := true })) :=
    ((h.handOut width).markup _ _).emit rfl rfl
  unfold State.completeOpening
  simp only
  split
  · exact hsaid.markup _ _
  · exact hsaid

theorem endElement (h : Verbatim read s) (e : Markup.Element) (after : List Char) :
    Verbatim read (s.endElement e after) := by
  unfold State.endElement
  split
  · simp only
    split
    · exact h.markup _ _
    · exact (((h.markup _ _).handOut 2).emit rfl rfl).markup _ _
  · exact h

theorem quote (h : Verbatim read s) (interest : Markup.Interest) (e : Markup.Element) :
    Verbatim read (s.quote interest e) := by
  unfold State.quote
  split
  · exact h
  · split
    · simp only
      split
      · exact ((h.markup _ _).handOut 0).emit rfl rfl
      · exact h.markup _ _
    · exact h.markup _ _
    · exact h

/-- Following the markup loses no text. -/
theorem followMarkup (h : Verbatim read s) (interest : Markup.Interest) (c : Char)
    (after : List Char) : Verbatim read (s.followMarkup interest c after) := by
  unfold State.followMarkup
  split
  · unfold State.beginElement
    split
    · exact h.markup _ _
    · exact h
  · split
    · exact h
    · split
      · exact h.endElement _ after
      · split
        · exact h
        · split
          · split
            · exact h
            · unfold State.beginAttribute
              split
              · exact h
              · exact h.markup _ _
          · exact h.quote interest _
          · split
            · exact h
            · unfold State.endTag
              split
              · exact h.completeOpening _ 2 true
              · split
                · exact h.markup _ _
                · exact h.completeOpening _ 1 false
          · exact h

/-! ## Reading -/

theorem readChar (h : Verbatim read s) (setting : Setting) (c : Char)
    (hquiet : endingAt? s.before after = none) : Verbatim read (s.readChar setting c after) := by
  unfold State.readChar State.readText
  rw [h.top, hquiet]
  simp only
  split
  · rw [State.parenthesisBegins, h.top]
    exact h
  · rw [State.parenthesisEnds, h.top]
    exact h
  · exact h.followMarkup _ _ _
  · exact h

theorem step (h : Verbatim read s) (setting : Setting) (c : Char)
    (hquiet : endingAt? (c :: read.reverse) after = none) :
    Verbatim (read ++ [c]) (s.step setting c after) := by
  have hread : Verbatim (read ++ [c]) ((s.advance c).readChar setting c after) :=
    (h.advance c).readChar setting c (by rw [(h.advance c).before]; simpa using hquiet)
  unfold State.step State.endLine
  split
  · have hsaid : Verbatim (read ++ [c])
        (((s.advance c).readChar setting c after).emit .lineEnd) := hread.emit rfl rfl
    exact ⟨hsaid.stack, hsaid.before, hsaid.texts, hsaid.problems, hsaid.events⟩
  · exact hread

/-- **Where no directive is found, nothing is lost.** -/
theorem through (h : Verbatim read s) (setting : Setting) (hquiet : Quiet read.reverse text rest) :
    Verbatim (read ++ text) (s.through setting text rest) := by
  induction text generalizing read s with
  | nil =>
      rw [List.append_nil]
      exact h
  | cons c text ih =>
      have hstep := h.step setting c hquiet.head
      have htail : Quiet (read ++ [c]).reverse text rest := by
        rw [List.reverse_append]
        exact hquiet.tail
      rw [List.append_cons]
      exact ih hstep htail

/-- At the end everything has been handed out. -/
theorem finish (h : Verbatim read s) : Verbatim read s.finish ∧ s.finish.pending = [] := by
  have hsettled : Verbatim read s.settled ∧ s.settled.pending = [] := by
    unfold State.settled
    rw [h.top]
    exact ⟨h.handOut 0, by simp⟩
  have hunfinished : s.settled.unfinished? = none := by
    simp [State.unfinished?, hsettled.1.stack]
  rw [State.finish_eq, hunfinished]
  exact ⟨hsettled.1.emit rfl rfl, by simpa using hsettled.2⟩

end Verbatim

end Scan

end Templating
