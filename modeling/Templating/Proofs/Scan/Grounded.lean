import Templating.Proofs.Scan.Nesting

/-!
# Texts and what stands on them

Most constructs have their place in a text. A stack on which each of them stands on a
text is grounded, and in a text a grounded stack is a sequence of texts in conditions,
in loops and in slots: there the depth can be read off the open blocks. A directive
leaves the stack grounded if what it begins begins in a text. But the scanner obeys
most directives wherever it meets them.
-/

namespace Templating

namespace Event

/-- How many levels deeper the content of a block lies. -/
def Block.levels : Block → Nat
  | .condition | .loop => 1
  | .slot => 3
  | .layout => 0

/-- The depth of content inside these blocks. -/
def indentation : List Opening → Nat
  | [] => 0
  | o :: opened => o.block.levels + indentation opened

end Event

namespace Scan

open Event (Block Opening indentation)

/-! ## Grounded stacks -/

/-- The construct has its place in a text. -/
def Construct.needsText : Construct → Bool
  | imported | param | condition | conditionElseIf | loop | reference _ | arguments ..
  | layoutBody | render => true
  | _ => false

/-- Text is innermost. -/
def OnText (stack : List Frame) : Prop :=
  ∀ frame ∈ stack.head?, frame.construct = .text

/-- A text does not lie directly in a layout call. -/
theorem head_ne_layout {stack : List Frame} (hs : Sound stack) (ht : OnText stack) :
    (openings false stack).head?.map Opening.block ≠ some .layout := by
  match stack, hs, ht with
  | [], _, _ => simp [openings]
  | [t], hs, ht =>
      have hfits := hs.1
      rw [ht t rfl] at hfits
      cases hfits
  | t :: opener :: rest, hs, ht =>
      have htext : t.construct = .text := ht t rfl
      have hfits := hs.1
      rw [htext] at hfits
      rw [openings_text htext]
      cases hk : opener.construct <;>
        simp_all [Construct.fits, openings, Construct.block?]

/-- Whatever has its place in a text stands on one. -/
def Grounded : List Frame → Prop
  | [] => True
  | frame :: rest => (frame.construct.needsText = true → OnText rest) ∧ Grounded rest

/-- In a text, the stack is a sequence of texts in conditions, in loops and in slots. -/
inductive Rooted : List Frame → Prop where
  | nil : Rooted []
  | block {t opener : Frame} {rest : List Frame} : t.construct = .text →
      opener.construct.isCondition = true ∨ opener.construct = .loop → Rooted rest →
      Rooted (t :: opener :: rest)
  | slot {t slot call : Frame} {rest : List Frame} : t.construct = .text →
      slot.construct = .slot → call.construct = .layoutBody → Rooted rest →
      Rooted (t :: slot :: call :: rest)

theorem rooted : ∀ {stack : List Frame}, Sound stack → Grounded stack → OnText stack →
    Rooted stack
  | [], _, _, _ => .nil
  | [t], hs, _, ht => by
      have hfits := hs.1
      rw [ht t rfl] at hfits
      cases hfits
  | t :: opener :: rest, hs, hg, ht => by
      have htext : t.construct = .text := ht t rfl
      have hfits := hs.1
      rw [htext] at hfits
      by_cases hslot : opener.construct = .slot
      · -- A slot stands on the body of a layout call, and that stands on text.
        have hbody := hs.2.1
        rw [hslot] at hbody
        cases rest with
        | nil => cases hbody
        | cons call below =>
            have hcall : call.construct = .layoutBody := by
              simpa [Construct.fits] using hbody
            exact .slot htext hslot hcall
              (rooted hs.2.2.2 hg.2.2.2 (hg.2.2.1 (by rw [hcall]; rfl)))
      · have hblock : opener.construct.isCondition = true ∨ opener.construct = .loop := by
          cases hk : opener.construct <;>
            simp_all [Construct.fits, Construct.isCondition]
        refine .block htext hblock (rooted hs.2.2 hg.2.2 (hg.2.1 ?_))
        cases hk : opener.construct <;>
          simp_all [Construct.isCondition, Construct.needsText]

namespace Rooted

variable {stack : List Frame}

/-- The block that a text belongs to, on top of what the stack below it says. -/
theorem openings_block {t opener : Frame} {rest : List Frame} (ht : t.construct = .text)
    (hopener : opener.construct.isCondition = true ∨ opener.construct = .loop) :
    ∃ block : Block, block.levels = 1 ∧ block ≠ .layout ∧
      openings false (t :: opener :: rest) = ⟨block, stackDepth rest⟩ :: openings false rest ∧
      stackDepth (t :: opener :: rest) = 1 + stackDepth rest := by
  rw [openings_text ht, stackDepth_text ht]
  rcases hopener with hcondition | hloop
  · obtain ⟨htext, hslot, -, hblock⟩ := spec_of_isCondition hcondition
    refine ⟨.condition, rfl, by simp, ?_, ?_⟩
    · rw [openings_cons htext, hblock]
      rfl
    · rw [stackDepth_cons htext, if_neg hslot, Nat.add_comm]
  · refine ⟨.loop, rfl, by simp, ?_, ?_⟩
    · rw [openings_cons (by simp [hloop]), hloop]
      rfl
    · rw [stackDepth_cons (by simp [hloop]), if_neg (by simp [hloop]), Nat.add_comm]

theorem openings_slot {t slot call : Frame} {rest : List Frame} (ht : t.construct = .text)
    (hslot : slot.construct = .slot) (hcall : call.construct = .layoutBody) :
    openings false (t :: slot :: call :: rest) =
        ⟨.slot, stackDepth rest⟩ :: ⟨.layout, stackDepth rest⟩ :: openings false rest ∧
      stackDepth (t :: slot :: call :: rest) = 3 + stackDepth rest := by
  have hbelow : stackDepth (call :: rest) = stackDepth rest := stackDepth_cons (by simp [hcall])
  constructor
  · rw [openings_text ht, openings_cons (by simp [hslot]), openings_cons (by simp [hcall]),
      hslot, hcall, hbelow]
    rfl
  · rw [stackDepth_text ht, stackDepth_cons (by simp [hslot]), hbelow, if_pos hslot,
      Nat.add_comm]

/-- In a text, the depth is that of the open blocks. -/
theorem indentation (h : Rooted stack) :
    indentation (openings false stack) = stackDepth stack := by
  induction h with
  | nil => rfl
  | block ht hopener _ ih =>
      obtain ⟨block, hlevels, -, hopenings, hdepth⟩ := openings_block ht hopener
      rw [hopenings, hdepth, ← ih, Event.indentation, hlevels]
  | slot ht hslot hcall _ ih =>
      obtain ⟨hopenings, hdepth⟩ := openings_slot ht hslot hcall
      rw [hopenings, hdepth, ← ih]
      simp [Event.indentation, Block.levels]

end Rooted

/-! ## Grounded states -/

variable {s t : State}

theorem onText_iff : OnText s.stack ↔ s.top = .text := by
  unfold OnText State.top
  cases s.stack <;> simp

theorem onText_of_inTextOf {sort : Construct → Bool} (h : s.inTextOf sort = true) :
    OnText s.stack := by
  obtain ⟨frame, opener, rest, hstack, hframe, -⟩ := State.inTextOf_eq_true s h
  rw [onText_iff]
  simp [State.top, hstack, hframe]

theorem Grounded.tail {stack : List Frame} (h : Grounded stack) : Grounded stack.tail := by
  cases stack with
  | nil => exact h
  | cons frame rest => exact h.2

theorem Sound.tail {stack : List Frame} (h : Sound stack) : Sound stack.tail := by
  cases stack with
  | nil => exact h
  | cons frame rest => exact h.2

theorem Grounded.push {stack : List Frame} (h : Grounded stack) {k : Construct} {line : Nat}
    (hk : k.needsText = true → OnText stack) : Grounded (⟨k, line⟩ :: stack) :=
  ⟨hk, h⟩

/-- What has its place in a text stands on one. -/
theorem Grounded.below (h : Grounded s.stack) (hs : s.top.needsText = true) :
    OnText s.stack.tail := by
  unfold State.top at hs
  cases hstack : s.stack with
  | nil =>
      rw [hstack] at hs
      cases hs
  | cons frame rest =>
      rw [hstack] at hs h
      exact h.1 hs

/-- A slot stands on the body of a layout call, and that on text. -/
theorem below_slot (hs : Sound s.stack) (hg : Grounded s.stack) (h : s.top = .slot) :
    ∃ frame call below, s.stack = frame :: call :: below ∧ frame.construct = .slot ∧
      call.construct = .layoutBody ∧ Rooted below := by
  obtain ⟨frame, rest, hstack, hframe⟩ := State.stack_of_top h (by simp)
  rw [hstack] at hs hg
  have hfits := hs.1
  rw [hframe] at hfits
  cases rest with
  | nil => cases hfits
  | cons call below =>
      have hcall : call.construct = .layoutBody := by
        simpa [Construct.fits] using hfits
      have hrooted : Rooted below := rooted hs.2.2 hg.2.2 (hg.2.1 (by rw [hcall]; rfl))
      exact ⟨frame, call, below, hstack, hframe, hcall, hrooted⟩

theorem not_needsText_of_isAside {k : Construct} (h : k.isAside = true) :
    k.needsText = false := by
  cases k <;> first | rfl | exact absurd h (by simp [Construct.isAside])

/-- What is passive and not aside has its place in a text. -/
theorem needsText_of_isPassive {k : Construct} (h : k.isPassive = true) :
    k.needsText = !k.isAside := by
  cases k <;> first | rfl | exact absurd h (by simp [Construct.isPassive])

/-- A deed leaves the stack grounded. -/
theorem Deed.grounded (h : Deed s t) (hs : Grounded s.stack) : Grounded t.stack := by
  cases h with
  | keep n => exact hs
  | markup elements closingTag => exact hs
  | report fault => exact hs
  | inline body _ _ => rwa [State.emit_stack]
  | aside k hk _ =>
      apply hs.push
      rw [not_needsText_of_isAside hk]
      simp
  | leave _ =>
      rw [State.pop_stack]
      exact hs.tail
  | become k hpassive hk _ haside =>
      obtain ⟨frame, rest, hstack, hframe⟩ :=
        State.stack_of_top rfl (ne_text_of_isPassive hpassive)
      rw [hstack] at hs
      simp only [State.become, hstack]
      refine ⟨?_, hs.2⟩
      intro hneeds
      apply hs.1
      rw [hframe, needsText_of_isPassive hpassive, ← haside, ← needsText_of_isPassive hk, hneeds]
  | call call angles reference arguments _ =>
      rw [State.emit_stack, State.pop_stack]
      exact hs.tail
  | render slot _ =>
      rw [State.emit_stack, State.pop_stack]
      exact hs.tail
  | refuse fault _ =>
      rw [State.report_stack, State.pop_stack]
      exact hs.tail
  | header body _ =>
      rw [State.push_stack, State.emit_stack]
      exact hs.push (by simp [Construct.needsText])
  | endBlock sort body _ _ =>
      rw [State.pop_stack, State.emit_stack, State.pop_stack]
      exact hs.tail.tail
  | layoutBegin call angles reference arguments htop =>
      rw [State.push_stack, State.emit_stack, State.pop_stack]
      exact hs.tail.push fun _ => hs.below (by rw [htop]; rfl)
  | layoutEnd _ =>
      rw [State.emit_stack, State.pop_stack]
      exact hs.tail
  | slotEnter _ => exact hs.push (by simp [Construct.needsText])
  | slotBegin name _ =>
      show Grounded (⟨.text, _⟩ :: (s.emit _).stack)
      rw [State.emit_stack]
      exact hs.push (by simp [Construct.needsText])
  | slotEnd _ =>
      rw [State.emit_stack]
      show Grounded s.pop.pop.stack
      rw [State.pop_stack, State.pop_stack]
      exact hs.tail.tail

/-- A directive leaves the stack grounded if what it begins begins in a text. -/
theorem Starts.grounded {d : Directive} (h : Starts s d t) (hs : Grounded s.stack)
    (hd : d.construct?.isSome = true → s.top = .text) : Grounded t.stack := by
  cases h with
  | enter _ k hk => exact hs.push fun _ => onText_iff.mpr (hd (by rw [hk]; rfl))
  | otherwise _ =>
      rw [State.push_stack, State.emit_stack, State.pop_stack]
      exact hs.tail.push (by simp [Construct.needsText])
  | elseIf hin =>
      obtain ⟨frame, opener, rest, hstack, -, hsort⟩ := State.inTextOf_eq_true s hin
      rw [State.push_stack, State.pop_stack, State.pop_stack]
      rw [hstack] at hs ⊢
      refine hs.2.2.push fun _ => hs.2.1 ?_
      cases hk : opener.construct <;> simp_all [Construct.isCondition, Construct.needsText]

theorem endDeclaration_grounded (hs : Grounded s.stack) (width : Nat) :
    Grounded (s.endDeclaration width).stack := by
  rw [State.endDeclaration_stack]
  exact hs.tail

end Scan

end Templating
