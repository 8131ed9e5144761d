import Templating.Proofs.Scan.Cursor.Notes
import Templating.Proofs.Scan.Interception

/-!
# One step in the markup

Elements and attributes are said by what follows the markup and by nothing else, and
nothing else changes the elements that are followed. So what a step does to them can be
told from the character, from what is around it and from the innermost element:
`Followed` lists the ways.
-/

namespace Templating

/-- The event is about an element of the markup. -/
def Event.Body.isMarkup : Event.Body → Bool
  | .elementOpened _ | .elementClosed _ | .attributeBegun .. => true
  | _ => false

namespace Scan

open Templating.Markup

namespace State

variable (s : State)

/-- What has been said of elements so far. -/
def marks : List Event.Body :=
  (s.events.map Event.body).filter Event.Body.isMarkup

theorem emit_marks (body : Event.Body) :
    (s.emit body).marks = s.marks ++ if body.isMarkup then [body] else [] := by
  unfold marks
  rw [emit_events, List.map_append, List.filter_append]
  congr 1
  unfold announcement
  have hheader : Event.Body.isMarkup .headerEnd = false := rfl
  cases h : body.isMarkup <;> split <;> simp [h, hheader]

/-! ## What is not about markup -/

section Quiet

variable {s} {body : Event.Body}

theorem emit_marks_of (h : body.isMarkup = false) : (s.emit body).marks = s.marks := by
  rw [emit_marks, h]
  exact List.append_nil _

@[simp] theorem signal_marks (p : Problem) : (s.signal (.problem p)).marks = s.marks := by
  rw [marks, signal_problem_events]
  rfl

@[simp] theorem report_marks (fault : Fault) : (s.report fault).marks = s.marks :=
  signal_marks _

@[simp] theorem advance_marks (c : Char) : (s.advance c).marks = s.marks := rfl

@[simp] theorem keep_marks (n : Nat) : (s.keep n).marks = s.marks := rfl

@[simp] theorem settle_marks : s.settle.marks = s.marks := rfl

@[simp] theorem push_marks (k : Construct) : (s.push k).marks = s.marks := rfl

@[simp] theorem pop_marks : s.pop.marks = s.marks := by
  rw [marks, pop_events]
  rfl

@[simp] theorem become_marks (k : Construct) : (s.become k).marks = s.marks := by
  rw [marks, become_events]
  rfl

@[simp] theorem setElement_marks (e : Element) : (s.setElement e).marks = s.marks := rfl

@[simp] theorem flush_marks (n : Nat) : (s.flush n).marks = s.marks := by
  rcases s.flush_eq n with h | h <;> rw [h]
  exact emit_marks_of rfl

end Quiet

theorem marks_closeBrace : s.closeBrace.marks = s.marks := by
  unfold closeBrace
  simp only
  split
  · simp
  · split <;> simp [emit_marks, Event.Body.isMarkup]
  · split <;> simp [emit_marks, Event.Body.isMarkup]
  · rfl

theorem marks_closeParenthesis : s.closeParenthesis.marks = s.marks := by
  have header (t : State) (body : Text.Slice → Event.Body) (h : ∀ x, (body x).isMarkup = false) :
      (t.closeHeader body).marks = t.marks := by
    rw [closeHeader, push_marks, emit_marks_of (h _), settle_marks]
  have call (call : PendingCall) : (s.closeCall call).marks = s.marks := by
    unfold closeCall
    simp only
    split <;> simp [emit_marks, Event.Body.isMarkup]
  unfold closeParenthesis
  simp only
  split
  · split
    · exact (header _ _ fun _ => rfl).trans s.pop_marks
    · exact (header _ _ fun _ => rfl).trans s.pop_marks
    · exact s.pop_marks
  · split
    · exact (header _ _ fun _ => rfl).trans s.pop_marks
    · exact s.pop_marks
  · exact call _
  · rfl

theorem marks_readCode (c : Char) (after : List Char) : (s.readCode c after).marks = s.marks := by
  unfold readCode
  split
  · simp
  · simp
  · exact s.marks_closeBrace
  · unfold openParenthesis
    split <;> simp
  · exact s.marks_closeParenthesis
  · unfold splitArgument
    split <;> simp
  · unfold openAngle
    split
    · split <;> simp
    · rfl
  · unfold closeAngle
    split
    · split <;> simp
    · rfl
  · rfl

theorem marks_readString (c : Char) (escaping : Bool) :
    (s.readString c escaping).marks = s.marks := by
  unfold readString
  split
  · simp
  · split <;> simp

theorem marks_endDeclaration (width : Nat) : (s.endDeclaration width).marks = s.marks := by
  unfold endDeclaration
  simp only
  split
  · simp
  · split
    · split <;> simp [emit_marks, Event.Body.isMarkup]
    · simp [emit_marks, Event.Body.isMarkup]

theorem marks_beginArguments (kind : CallKind) : (s.beginArguments kind).marks = s.marks := by
  unfold beginArguments
  simp only
  split <;> simp

theorem marks_obey (d : Directive) : (s.obey d).marks = s.marks := by
  have declaration (width : Nat) (k : Construct) :
      (s.beginDeclaration width k).marks = s.marks := by
    unfold beginDeclaration
    simp only
    split <;> simp
  have ending (closing opening : Directive) (sort : Construct → Bool) (body : Event.Body)
      (h : body.isMarkup = false) : (s.endBlock closing opening sort body).marks = s.marks := by
    unfold endBlock reportUnbalanced
    split <;> simp [emit_marks_of h]
  unfold obey
  split
  · simp
  · exact declaration _ _
  · exact declaration _ _
  · simp [begin]
  · simp [begin]
  · simp [begin]
  · unfold conditionElse reportUnbalanced
    split <;> simp [emit_marks, Event.Body.isMarkup]
  · unfold conditionElseIf reportUnbalanced
    split <;> simp
  · exact ending _ _ _ _ rfl
  · simp [begin]
  · exact ending _ _ _ _ rfl
  · simp [begin]
  · unfold endLayout reportUnbalanced
    split <;> simp [emit_marks, Event.Body.isMarkup]
  · unfold beginSlot
    split <;> simp
  · unfold endSlot reportUnbalanced
    split
    · rw [emit_marks_of rfl]
      show (s.flush Directive.slotEnd.width).settle.pop.pop.marks = s.marks
      simp
    · simp
  · simp [begin]

theorem marks_parenthesisBegins : s.parenthesisBegins.marks = s.marks := by
  unfold parenthesisBegins
  split <;> simp

theorem marks_parenthesisEnds (kind : Kind) : (s.parenthesisEnds kind).marks = s.marks := by
  unfold parenthesisEnds
  split
  · show (((s.emit _).settle).push .text).marks = s.marks
    simp [emit_marks, Event.Body.isMarkup]
  · unfold endRender
    simp only
    split <;> simp [emit_marks, Event.Body.isMarkup]
  · rfl

end State

/-! ## What is about markup -/

/-- What a step over a character may do: the elements that are followed afterwards, and
what is said of them. -/
inductive Followed (s : State) (interest : Interest) :
    Char → List Char → List Element → List Event.Body → Prop where
  /-- A tag begins. -/
  | begun (name : String) (after : List Char) : name ∈ interest.tags →
      State.opensHere after name = true → Followed s interest '<' after ({ name } :: s.elements) []
  /-- The innermost element is closed. -/
  | closed (e : Element) (rest : List Element) (after : List Char) : s.elements = e :: rest →
      s.before.head? = some '<' → e.name.toList <+: after → e.isVoid = false →
      Followed s interest '/' after rest [.elementClosed e]
  /-- An attribute begins with the name that stands before. -/
  | named (e : Element) (rest : List Element) (after : List Char) : s.elements = e :: rest →
      e.opened = false → e.inValue = false → State.nameBackwards s.before ≠ [] →
      Followed s interest '=' after
        ({ e with
            attributes := e.attributes ++
              [{ name := String.ofList (State.nameBackwards s.before) }] } :: rest) []
  /-- The value of the current attribute begins. -/
  | valueBegun (e : Element) (rest : List Element) (a begun : Attribute) (after : List Char) :
      s.elements = e :: rest → e.opened = false → e.current? = some a → a.value = .awaited →
      begun = { a with value := .begun, valueStart := s.position + 1 } →
      Followed s interest '"' after (e.setCurrent begun :: rest)
        (if interest.wantsAttribute a.name then [.attributeBegun (e.setCurrent begun) begun]
          else [])
  /-- It ends. -/
  | valueEnded (e : Element) (rest : List Element) (a : Attribute) (text : String)
      (after : List Char) : s.elements = e :: rest → e.opened = false → e.current? = some a →
      a.value = .begun → Followed s interest '"' after
        (e.setCurrent { a with value := .whole text } :: rest) []
  /-- The opening tag is complete. The element stays open unless its tag closes itself
  or it is void. -/
  | opened (e opened : Element) (rest : List Element) (after : List Char) :
      s.elements = e :: rest → e.opened = false → e.inValue = false →
      opened = { e with opened := true } →
      Followed s interest '>' after
        (if s.before.head? = some '/' ∨ e.isVoid = true then rest else opened :: rest)
        [.elementOpened opened]

namespace State

variable {s : State} {interest : Interest} {c : Char} {after : List Char}

theorem completeOpening_follows {e : Element} {rest : List Element} (he : s.elements = e :: rest)
    (width : Nat) (selfClosing : Bool) :
    (s.completeOpening e width selfClosing).marks =
        s.marks ++ [.elementOpened { e with opened := true }] ∧
      (s.completeOpening e width selfClosing).elements =
        if selfClosing = true ∨ e.isVoid = true then rest
        else { e with opened := true } :: rest := by
  let told : State := (((s.flush width).keep width).setElement { e with opened := true }).emit
    (.elementOpened { e with opened := true })
  have hmarks : told.marks = s.marks ++ [.elementOpened { e with opened := true }] := by
    simp [told, emit_marks, Event.Body.isMarkup]
  have helements : told.elements = { e with opened := true } :: rest := by
    simp [told, setElement, he]
  have hvoid : ({ e with opened := true } : Element).isVoid = e.isVoid := rfl
  unfold completeOpening
  simp only [hvoid, Bool.or_eq_true]
  split
  · exact ⟨hmarks, congrArg List.tail helements⟩
  · exact ⟨hmarks, helements⟩

/-- From `s` to `t` nothing was done, or the markup was followed over `c`. -/
def FollowsTo (interest : Interest) (c : Char) (after : List Char) (s t : State) : Prop :=
  ∃ new, t.marks = s.marks ++ new ∧
    (t.elements = s.elements ∧ new = [] ∨ Followed s interest c after t.elements new)

theorem FollowsTo.same {t : State} (hmarks : t.marks = s.marks)
    (helements : t.elements = s.elements) : FollowsTo interest c after s t :=
  ⟨[], by rw [hmarks, List.append_nil], Or.inl ⟨helements, rfl⟩⟩

theorem beginElement_followsTo (s : State) (interest : Interest) (after : List Char) :
    FollowsTo interest '<' after s ((s.advance '<').beginElement interest after) := by
  unfold beginElement
  split
  · rename_i name hname
    refine ⟨[], (List.append_nil _).symm, Or.inr ?_⟩
    exact .begun name after (List.mem_of_find?_eq_some hname) (List.find?_some hname)
  · exact .same rfl rfl

section Innermost

variable {e : Element} {rest : List Element} (he : s.elements = e :: rest)

include he

theorem endElement_followsTo (hbefore : s.before.head? = some '<') :
    FollowsTo interest '/' after s ((s.advance '/').endElement e after) := by
  unfold endElement
  split
  · rename_i hname
    simp only
    split
    · exact .same rfl rfl
    · rename_i hvoid
      refine ⟨[.elementClosed e], ?_, Or.inr ?_⟩
      · have hflush (t : State) : (t.flush 2).marks = t.marks := flush_marks 2
        show (State.emit _ (.elementClosed e)).marks = _
        rw [emit_marks, keep_marks, hflush]
        rfl
      · show Followed s interest '/' after (s.advance '/').elements.tail _
        rw [show (s.advance '/').elements = e :: rest from he]
        exact .closed e rest after he hbefore (List.isPrefixOf_iff_prefix.mp hname)
          (by simpa using hvoid)
  · exact .same rfl rfl

theorem beginAttribute_followsTo (hopened : e.opened = false) (hvalue : e.inValue = false) :
    FollowsTo interest '=' after s ((s.advance '=').beginAttribute e) := by
  unfold beginAttribute
  split
  · exact .same rfl rfl
  · rename_i hname
    refine ⟨[], (List.append_nil _).symm, Or.inr ?_⟩
    show Followed s interest '=' after (_ :: (s.advance '=').elements.tail) []
    rw [show (s.advance '=').elements = e :: rest from he]
    exact .named e rest after he hopened hvalue hname

theorem quote_follows (interest : Interest) :
    (s.quote interest e).marks = s.marks ∧ (s.quote interest e).elements = s.elements ∧
        (∀ a ∈ e.current?, ∃ text, a.value = .whole text) ∨
      (∃ a begun, e.current? = some a ∧ a.value = .awaited ∧
        begun = { a with value := .begun, valueStart := s.position } ∧
        (s.quote interest e).marks = s.marks ++
          (if interest.wantsAttribute a.name then [.attributeBegun (e.setCurrent begun) begun]
            else []) ∧
        (s.quote interest e).elements = e.setCurrent begun :: rest) ∨
      ∃ a text, e.current? = some a ∧ a.value = .begun ∧
        (s.quote interest e).marks = s.marks ∧
        (s.quote interest e).elements = e.setCurrent { a with value := .whole text } :: rest := by
  unfold quote
  split
  · rename_i hnone
    exact Or.inl ⟨rfl, rfl, by simp [hnone]⟩
  · rename_i a hcurrent
    split
    · rename_i hvalue
      refine Or.inr (Or.inl ⟨a, _, hcurrent, hvalue, rfl, ?_⟩)
      simp only
      split
      · refine ⟨by simp [emit_marks, Event.Body.isMarkup], ?_⟩
        simp [settle, setElement, he]
      · exact ⟨by simp, by simp [setElement, he]⟩
    · rename_i hvalue
      refine Or.inr (Or.inr ⟨a, s.textSince a.valueStart, hcurrent, hvalue, rfl, ?_⟩)
      simp [setElement, he]
    · rename_i text hvalue
      exact Or.inl ⟨rfl, rfl, by simpa [hcurrent] using ⟨text, hvalue⟩⟩

theorem quote_followsTo (hopened : e.opened = false) :
    FollowsTo interest '"' after s ((s.advance '"').quote interest e) := by
  rcases quote_follows (s := s.advance '"') he interest with
    ⟨hmarks, helements, -⟩ | ⟨a, begun, hcurrent, hvalue, hbegun, hmarks, helements⟩ |
    ⟨a, text, hcurrent, hvalue, hmarks, helements⟩
  · exact .same hmarks helements
  · refine ⟨_, hmarks, Or.inr ?_⟩
    rw [helements]
    exact .valueBegun e rest a begun after he hopened hcurrent hvalue hbegun
  · refine ⟨[], by rw [hmarks, List.append_nil]; rfl, Or.inr ?_⟩
    rw [helements]
    exact .valueEnded e rest a text after he hopened hcurrent hvalue

theorem endTag_followsTo (hopened : e.opened = false) (hvalue : e.inValue = false) :
    FollowsTo interest '>' after s ((s.advance '>').endTag e) := by
  have complete (width : Nat) {selfClosing : Bool}
      (hslash : selfClosing = true ↔ s.before.head? = some '/') :
      FollowsTo interest '>' after s ((s.advance '>').completeOpening e width selfClosing) := by
    obtain ⟨hmarks, helements⟩ :=
      completeOpening_follows (s := s.advance '>') he width selfClosing
    refine ⟨_, hmarks, Or.inr ?_⟩
    simp only [helements, hslash]
    exact .opened e _ rest after he hopened hvalue rfl
  unfold endTag
  rw [advance_previous?]
  split
  · rename_i hslash
    exact complete 2 (iff_of_true rfl hslash)
  · rename_i hslash
    split
    · exact .same rfl rfl
    · exact complete 1 (iff_of_false (by decide) hslash)

end Innermost

/-- **Following the markup over a character.** -/
theorem followMarkup_followsTo (s : State) (interest : Interest) (c : Char) (after : List Char) :
    FollowsTo interest c after s ((s.advance c).followMarkup interest c after) := by
  unfold followMarkup
  split
  · rename_i hc
    subst hc
    exact s.beginElement_followsTo interest after
  · split
    · exact .same rfl rfl
    · rename_i e rest he
      have he : s.elements = e :: rest := he
      split
      · rename_i hc
        obtain ⟨rfl, hprevious⟩ := hc
        rw [advance_previous?] at hprevious
        exact endElement_followsTo he hprevious
      · split
        · exact .same rfl rfl
        · rename_i hopened
          have hopened : e.opened = false := by simpa using hopened
          split
          · split
            · exact .same rfl rfl
            · rename_i hvalue
              exact beginAttribute_followsTo he hopened (by simpa using hvalue)
          · exact quote_followsTo he hopened
          · split
            · exact .same rfl rfl
            · rename_i hvalue
              exact endTag_followsTo he hopened (by simpa using hvalue)
          · exact .same rfl rfl

/-- What is said and done outside markup. -/
theorem readText_follows (s : State) (setting : Setting) (c : Char) (after : List Char) :
    ((s.readText setting c after).marks = s.marks ∧
        (s.readText setting c after).elements = s.elements) ∨
      ∃ interest, s.top = .text ∧ Interest.active? setting.interest? = some interest ∧
        s.readText setting c after = s.followMarkup interest c after := by
  unfold readText
  split
  · rename_i d _
    exact Or.inl ⟨s.marks_obey d,
      Noted.elements_of_blind (·.obey d) fun es b => s.amid_obey [] es b d⟩
  · split
    · exact Or.inl ⟨s.marks_parenthesisBegins,
        Noted.elements_of_blind (·.parenthesisBegins) fun es b => s.amid_parenthesisBegins [] es b⟩
    · exact Or.inl ⟨s.marks_parenthesisEnds _, Noted.elements_of_blind
        (·.parenthesisEnds setting.kind) fun es b => s.amid_parenthesisEnds [] es b _⟩
    · rename_i interest _ _ htop hactive
      exact Or.inr ⟨interest, htop, hactive, rfl⟩
    · exact Or.inl ⟨rfl, rfl⟩

theorem readChar_follows (s : State) (setting : Setting) (c : Char) (after : List Char) :
    ((s.readChar setting c after).marks = s.marks ∧
        (s.readChar setting c after).elements = s.elements) ∨
      ∃ interest, s.top = .text ∧ Interest.active? setting.interest? = some interest ∧
        s.readChar setting c after = s.followMarkup interest c after := by
  by_cases htext : s.top = .text
  · rw [readChar_readsText _ _ _ _ (by rw [htext]; rfl)]
    exact s.readText_follows setting c after
  · refine Or.inl ⟨?_, Noted.elements_of_blind (·.readChar setting c after) fun es b =>
      s.amid_readChar [] es b setting c after (Or.inl htext)⟩
    have hread : (s.readText setting c after).marks = s.marks := by
      rcases s.readText_follows setting c after with h | ⟨_, htop, -⟩
      · exact h.1
      · exact absurd htop htext
    unfold readChar
    split
    · split <;> simp
    · exact s.marks_readString c _
    · split
      · exact s.marks_endDeclaration 1
      · rfl
    · split
      · exact s.marks_endDeclaration 1
      · rfl
    · split
      · exact s.marks_beginArguments _
      · rfl
    all_goals first
      | exact s.marks_readCode c after
      | exact hread

theorem followMarkup_stack (s : State) (interest : Interest) (c : Char) (after : List Char) :
    (s.followMarkup interest c after).stack = s.stack := by
  have hfollows := follows_followMarkup (s := s) interest c after
  generalize s.followMarkup interest c after = t at hfollows
  cases hfollows with
  | look es b => rfl
  | tell m body es b _ _ _ _ =>
      show (State.emit _ body).stack = s.stack
      simp

/-- **A step changes the elements by following the markup, in text, or not at all.** -/
theorem step_follows (s : State) (setting : Setting) (c : Char) (after : List Char) :
    ∃ new, (s.step setting c after).marks = s.marks ++ new ∧
      ((s.step setting c after).elements = s.elements ∧ new = [] ∨
        ∃ interest, s.top = .text ∧ (s.step setting c after).top = .text ∧
          Interest.active? setting.interest? = some interest ∧
          Followed s interest c after (s.step setting c after).elements new) := by
  have endLine (t : State) :
      (t.endLine c).marks = t.marks ∧ (t.endLine c).elements = t.elements := by
    unfold State.endLine
    split
    · refine ⟨?_, by simp⟩
      show (State.emit _ _).marks = _
      exact emit_marks_of rfl
    · exact ⟨rfl, rfl⟩
  have hstack := s.step_stack c setting after
  unfold step at hstack ⊢
  rw [(endLine _).1, (endLine _).2]
  rcases (s.advance c).readChar_follows setting c after with
    ⟨hmarks, helements⟩ | ⟨interest, htop, hactive, hread⟩
  · exact ⟨[], by rw [hmarks, List.append_nil]; rfl, Or.inl ⟨helements, rfl⟩⟩
  · obtain ⟨new, hmarks, hfollows⟩ := followMarkup_followsTo s interest c after
    rw [hread, followMarkup_stack] at hstack
    rw [hread]
    exact ⟨new, hmarks, hfollows.imp_right fun h =>
      ⟨interest, htop, (top_of_stack hstack).trans htop, hactive, h⟩⟩

/-- At the end of the input nothing is said of elements. -/
theorem finish_marks (s : State) : s.finish.marks = s.marks := by
  have hsettled : s.settled.marks = s.marks := by
    unfold settled
    simp only [settle_marks, flush_marks]
    split
    · exact s.marks_endDeclaration 0
    · rfl
  rw [finish_eq]
  split
  · rw [emit_marks_of rfl, signal_marks, hsettled]
  · rw [emit_marks_of rfl, hsettled]

end State

/-- What a template says of elements is what has been said when it has been read. -/
theorem marks_of_events (setting : Setting) (source : List Char) :
    ((events setting source).map Event.body).filter Event.Body.isMarkup =
      (State.through setting {} source []).marks := by
  rw [← State.run_eq_through, ← State.finish_marks]
  rfl

end Scan

end Templating
