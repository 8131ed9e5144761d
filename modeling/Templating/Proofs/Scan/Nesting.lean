import Templating.Proofs.Event.Nesting
import Templating.Proofs.Scan.Invariant

/-!
# Nesting of the events of a scan

Whatever the template, its events nest: each branch and each end belongs to the
innermost open block, of its kind and at its depth, and a slot stands directly
in a layout call. The invariant reads the open blocks off the stack of
constructs: a condition, a loop or a slot is an open block once there is text
on it, a condition that has seen `@elseif` and the body of a layout call are
open blocks from the start.
-/

namespace Templating.Scan

open Event (Block Opening follow openAfter)

/-! ## Depth and open blocks of a stack -/

/-- How many texts inside constructs are open. -/
def textFrames (stack : List Frame) : Nat :=
  stack.countP fun frame => frame.construct == .text

/-- How many slots have their text open. -/
def slotFrames : List Frame → Nat
  | t :: opener :: rest =>
      (if t.construct = .text ∧ opener.construct = .slot then 1 else 0) +
        slotFrames (opener :: rest)
  | _ => 0

/-- The depth that belongs to a stack: text counts once, and the text of a slot
twice more. -/
def stackDepth (stack : List Frame) : Nat :=
  textFrames stack + 2 * slotFrames stack

/-- The block that a construct keeps open; `covered` says that its text is on
the stack. -/
def Construct.block? (covered : Bool) : Construct → Option Block
  | .condition => if covered then some .condition else none
  | .conditionElseIf => some .condition
  | .loop => if covered then some .loop else none
  | .slot => if covered then some .slot else none
  | .layoutBody => some .layout
  | _ => none

/-- The open blocks of a stack whose innermost frame is covered by text or
not. -/
def openings (covered : Bool) : List Frame → List Opening
  | [] => []
  | frame :: rest =>
      ((frame.construct.block? covered).map fun block => ⟨block, stackDepth rest⟩).toList ++
        openings (frame.construct == .text) rest

/-- A construct may stand on another one, or on the template itself: text needs
something it belongs to, and a slot needs a layout call. -/
def Construct.fits : Construct → Option Construct → Bool
  | .text, below => below == some .condition || below == some .conditionElseIf ||
      below == some .loop || below == some .slot
  | .slot, below => below == some .layoutBody
  | _, _ => true

/-- Every frame of the stack may stand where it stands. -/
def Sound : List Frame → Prop
  | [] => True
  | frame :: rest =>
      frame.construct.fits (rest.head?.map Frame.construct) = true ∧ Sound rest

variable {frame opener : Frame} {rest stack : List Frame}

theorem stackDepth_cons (h : frame.construct ≠ .text) :
    stackDepth (frame :: rest) = stackDepth rest := by
  unfold stackDepth textFrames
  rw [List.countP_cons_of_neg (by simpa using h)]
  cases rest <;> simp [slotFrames, h]

theorem stackDepth_text (h : frame.construct = .text) :
    stackDepth (frame :: opener :: rest) =
      stackDepth (opener :: rest) + if opener.construct = .slot then 3 else 1 := by
  unfold stackDepth textFrames
  rw [List.countP_cons_of_pos (by simpa using h)]
  simp only [slotFrames, h, true_and]
  split <;> omega

theorem openings_cons_passive (h : frame.construct.isPassive = true) :
    openings false (frame :: rest) = openings false rest := by
  have htext : (frame.construct == .text) = false := by
    cases hk : frame.construct <;> simp_all [Construct.isPassive]
  have hblock : frame.construct.block? false = none := by
    cases hk : frame.construct <;> simp_all [Construct.isPassive, Construct.block?]
  rw [openings, htext, hblock]
  rfl

theorem openings_text (h : frame.construct = .text) :
    openings false (frame :: rest) = openings true rest := by
  rw [openings, h]
  rfl

theorem openings_text_push (line : Nat) :
    openings false (⟨.text, line⟩ :: rest) = openings true rest :=
  openings_text rfl

theorem openings_cons (h : frame.construct ≠ .text) {covered : Bool} :
    openings covered (frame :: rest) =
      ((frame.construct.block? covered).map fun block => ⟨block, stackDepth rest⟩).toList ++
        openings false rest := by
  rw [openings, beq_eq_false_iff_ne.mpr h]

theorem ne_text_of_isPassive {k : Construct} (h : k.isPassive = true) : k ≠ .text := by
  rintro rfl
  exact absurd h (by decide)

theorem fits_of_isPassive {k : Construct} (h : k.isPassive = true) (below : Option Construct) :
    k.fits below = true := by
  cases k <;> first | rfl | exact absurd h (by decide)

/-- What the stack says of a construct that conditions are about. -/
theorem spec_of_isCondition {k : Construct} (h : k.isCondition = true) :
    k ≠ .text ∧ k ≠ .slot ∧ Construct.text.fits (some k) = true ∧
      k.block? true = some .condition := by
  cases k with
  | condition => decide
  | conditionElseIf => decide
  | _ => exact absurd h (by simp [Construct.isCondition])

/-- What the stack says of a construct whose header ends, and of the event that
says so. -/
theorem spec_of_heads {k : Construct} {body : Event.Body} (h : Heads k body) :
    k ≠ .text ∧ k ≠ .slot ∧ Construct.text.fits (some k) = true ∧
      ∀ (line depth : Nat) (opened : List Opening),
        follow (((k.block? false).map fun block => ⟨block, depth⟩).toList ++ opened)
            ⟨line, depth, body⟩ =
          some (((k.block? true).map fun block => ⟨block, depth⟩).toList ++ opened) := by
  cases h <;> exact ⟨by simp, by simp, rfl, fun line depth opened => by
    simp [follow, Event.Body.role, Construct.block?]⟩

/-- What the stack says of a construct that an end belongs to. -/
theorem spec_of_ends {sort : Construct → Bool} {body : Event.Body} (hb : Ends sort body)
    {k : Construct} (h : sort k = true) :
    k ≠ .text ∧ k ≠ .slot ∧ ∃ block, k.block? true = some block ∧ body.role = .closes block := by
  cases hb with
  | condition =>
      obtain ⟨htext, hslot, -, hblock⟩ := spec_of_isCondition h
      exact ⟨htext, hslot, .condition, hblock, rfl⟩
  | loop =>
      obtain rfl : k = .loop := by simpa using h
      exact ⟨by simp, by simp, .loop, rfl, rfl⟩

/-! ## The invariant -/

/-- The stack stands as it may, the depth is the depth of the stack, and the
blocks that the events leave open are those of the stack. -/
structure Nested (s : State) : Prop where
  sound : Sound s.stack
  depth : s.depth = stackDepth s.stack
  opened : openAfter s.events = some (openings false s.stack)

theorem follow_neutral {opened : List Opening} {e : Event} (h : e.body.role = .neutral) :
    follow opened e = some opened := by
  unfold follow
  rw [h]

/-- Saying something adds one event that matters for the nesting. -/
theorem openAfter_emit (s : State) (body : Event.Body) :
    openAfter (s.emit body).events =
      (openAfter s.events).bind fun opened => follow opened ⟨s.line, s.depth, body⟩ := by
  rw [State.emit_events, Event.openAfter_append]
  unfold State.announcement
  split
  · simp
  · have hheader (opened : List Opening) :
        follow opened ⟨s.line, s.depth, .headerEnd⟩ = some opened := follow_neutral rfl
    simp [hheader]

theorem role_of_isNeutral {body : Event.Body} (h : body.isNeutral = true) :
    body.role = .neutral := by
  cases body with
  | call kind reference arguments =>
      cases kind with
      | tag => rfl
      | layout => exact absurd h (by simp [Event.Body.isNeutral])
  | _ => first | rfl | exact absurd h (by simp [Event.Body.isNeutral])

namespace Nested

variable {s : State}

/-- A state with the same stack, depth and events is nested as well. -/
theorem congr {t : State} (h : Nested s) (hstack : t.stack = s.stack)
    (hdepth : t.depth = s.depth) (hevents : t.events = s.events) : Nested t :=
  ⟨hstack ▸ h.sound, by rw [hdepth, hstack]; exact h.depth,
    by rw [hevents, hstack]; exact h.opened⟩

/-- What the invariant says of a state inside a construct that is not text. -/
theorem innermost (h : Nested s) {k : Construct} (hs : s.top = k) (hk : k ≠ .text) :
    ∃ frame rest, s.stack = frame :: rest ∧ frame.construct = k ∧
      Sound (frame :: rest) ∧ s.depth = stackDepth rest ∧
      openAfter s.events = some (openings false (frame :: rest)) := by
  obtain ⟨frame, rest, hstack, hframe⟩ := State.stack_of_top hs hk
  refine ⟨frame, rest, hstack, hframe, hstack ▸ h.sound, ?_, hstack ▸ h.opened⟩
  rw [h.depth, hstack, stackDepth_cons (hframe ▸ hk)]

/-- What the invariant says of a state in the text of a construct. -/
theorem scope (h : Nested s) {sort : Construct → Bool} (hs : s.inTextOf sort = true) :
    ∃ t opener rest, s.stack = t :: opener :: rest ∧ t.construct = .text ∧
      sort opener.construct = true ∧ Sound (opener :: rest) ∧
      s.depth = stackDepth (opener :: rest) + (if opener.construct = .slot then 3 else 1) ∧
      openAfter s.events = some (openings true (opener :: rest)) := by
  obtain ⟨t, opener, rest, hstack, ht, hsort⟩ := State.inTextOf_eq_true s hs
  have hsound := h.sound
  have hdepth := h.depth
  have hopened := h.opened
  rw [hstack] at hsound hdepth hopened
  rw [stackDepth_text ht] at hdepth
  rw [openings_text ht] at hopened
  exact ⟨t, opener, rest, hstack, ht, hsort, hsound.2, hdepth, hopened⟩

theorem emit (h : Nested s) (body : Event.Body) (hbody : body.role = .neutral) :
    Nested (s.emit body) := by
  refine ⟨by simpa using h.sound, by simpa using h.depth, ?_⟩
  rw [openAfter_emit, h.opened, State.emit_stack]
  exact follow_neutral hbody

theorem push (h : Nested s) {k : Construct} (hk : k.isPassive = true) : Nested (s.push k) := by
  have htext := ne_text_of_isPassive hk
  refine ⟨⟨fits_of_isPassive hk _, h.sound⟩, ?_, ?_⟩
  · rw [State.push_stack, stackDepth_cons htext, ← h.depth]
    simp [State.push, htext]
  · rw [State.push_events, State.push_stack, openings_cons_passive hk, h.opened]

theorem pop (h : Nested s) (hs : s.top.isPassive = true) : Nested s.pop := by
  have htext := ne_text_of_isPassive hs
  obtain ⟨frame, rest, hstack, hframe, hsound, hdepth, hopened⟩ := h.innermost rfl htext
  refine ⟨by simpa [hstack] using hsound.2, ?_, ?_⟩
  · rw [State.pop_depth, State.pop_stack, hstack]
    simpa [htext] using hdepth
  · rw [State.pop_events, State.pop_stack, hstack, hopened,
      openings_cons_passive (hframe ▸ hs)]
    rfl

theorem become (h : Nested s) {k : Construct} (hs : s.top.isPassive = true)
    (hk : k.isPassive = true) : Nested (s.become k) := by
  obtain ⟨frame, rest, hstack, hframe, hsound, hdepth, hopened⟩ :=
    h.innermost rfl (ne_text_of_isPassive hs)
  have hstack' : (s.become k).stack = { frame with construct := k } :: rest := by
    simp [State.become, hstack]
  refine ⟨?_, ?_, ?_⟩
  · rw [hstack']
    exact ⟨fits_of_isPassive hk _, hsound.2⟩
  · rw [State.become_depth, hstack', stackDepth_cons (ne_text_of_isPassive hk)]
    exact hdepth
  · rw [State.become_events, hstack', openings_cons_passive hk, hopened,
      openings_cons_passive (hframe ▸ hs)]

/-- A header ends: the text it governs begins, and the block is open from
now on. -/
theorem header (h : Nested s) {body : Event.Body} (hs : Heads s.top body) :
    Nested ((s.emit body).push .text) := by
  obtain ⟨htext, hslot, hfits, hfollow⟩ := spec_of_heads hs
  obtain ⟨frame, rest, hstack, hframe, hsound, hdepth, hopened⟩ := h.innermost rfl htext
  rw [← hframe] at htext hslot hfits hfollow
  have hstack' : ((s.emit body).push .text).stack = ⟨.text, s.line⟩ :: frame :: rest := by
    simp [hstack]
  refine ⟨?_, ?_, ?_⟩
  · rw [hstack']
    exact ⟨hfits, hsound⟩
  · rw [hstack', stackDepth_text rfl, stackDepth_cons htext]
    simp [State.push, hdepth, hslot]
  · rw [State.push_events, openAfter_emit, hopened, hstack', openings_text_push, hdepth,
      openings_cons htext, openings_cons htext]
    exact hfollow _ _ _

/-- `@else` ends a branch and begins the next one on the same condition. -/
theorem otherwise (h : Nested s) (hs : s.inTextOf Construct.isCondition = true) :
    Nested ((s.pop.emit .conditionElse).push .text) := by
  obtain ⟨t, opener, rest, hstack, ht, hsort, hsound, hdepth, hopened⟩ := h.scope hs
  obtain ⟨htext, hslot, hfits, hblock⟩ := spec_of_isCondition hsort
  have hpop : s.pop.depth = stackDepth rest := by
    rw [State.pop_depth, hdepth, stackDepth_cons htext]
    simp [hstack, State.top, ht, hslot]
  have hstack' : ((s.pop.emit .conditionElse).push .text).stack =
      ⟨.text, s.line⟩ :: opener :: rest := by
    simp [hstack]
  refine ⟨?_, ?_, ?_⟩
  · rw [hstack']
    exact ⟨hfits, hsound⟩
  · rw [hstack', stackDepth_text rfl, stackDepth_cons htext]
    simp [State.push, hpop, hslot]
  · rw [State.push_events, openAfter_emit, State.pop_events, hopened, hstack',
      openings_text_push, openings_cons htext, hblock, hpop]
    simp [follow, Event.Body.role]

/-- `@elseif` ends a branch; the condition stays open while the next header is
read. -/
theorem elseIf (h : Nested s) (hs : s.inTextOf Construct.isCondition = true) :
    Nested (s.pop.pop.push .conditionElseIf) := by
  obtain ⟨t, opener, rest, hstack, ht, hsort, hsound, hdepth, hopened⟩ := h.scope hs
  obtain ⟨htext, hslot, -, hblock⟩ := spec_of_isCondition hsort
  have hstack' : (s.pop.pop.push .conditionElseIf).stack =
      ⟨.conditionElseIf, s.line⟩ :: rest := by
    simp [hstack]
  refine ⟨?_, ?_, ?_⟩
  · rw [hstack']
    exact ⟨rfl, hsound.2⟩
  · rw [stackDepth_cons htext] at hdepth
    rw [hstack', stackDepth_cons (by simp)]
    simp [State.push, State.pop, hstack, ht, htext, hdepth, hslot]
  · rw [State.push_events, State.pop_events, State.pop_events, hopened, hstack',
      openings_cons htext, openings_cons (by simp), hblock]
    rfl

/-- A condition or a loop ends at the depth at which it began. -/
theorem endBlock (h : Nested s) {sort : Construct → Bool} {body : Event.Body}
    (hb : Ends sort body) (hs : s.inTextOf sort = true) :
    Nested ((s.pop.emit body).pop) := by
  obtain ⟨t, opener, rest, hstack, ht, hsort, hsound, hdepth, hopened⟩ := h.scope hs
  obtain ⟨htext, hslot, block, hblock, hrole⟩ := spec_of_ends hb hsort
  have hpop : s.pop.depth = stackDepth rest := by
    rw [State.pop_depth, hdepth, stackDepth_cons htext]
    simp [hstack, State.top, ht, hslot]
  have hstack' : ((s.pop.emit body).pop).stack = rest := by
    simp [hstack]
  refine ⟨?_, ?_, ?_⟩
  · rw [hstack']
    exact hsound.2
  · rw [hstack', State.pop_depth]
    simp [State.top, hstack, htext, hpop]
  · rw [State.pop_events, openAfter_emit, State.pop_events, hopened, hstack',
      openings_cons htext, hblock, hpop]
    simp [follow, hrole]

/-- The arguments of a layout call end, and the call is open. -/
theorem layoutBegin (h : Nested s) {call : PendingCall} {angles : Nat} {reference : String}
    {arguments : List Text.Slice} (hs : s.top = .arguments call angles) :
    Nested ((s.pop.emit (.call .layout reference arguments)).push .layoutBody) := by
  have hpop : Nested s.pop := h.pop (by rw [hs]; rfl)
  refine ⟨?_, ?_, ?_⟩
  · rw [State.push_stack, State.emit_stack]
    exact ⟨rfl, hpop.sound⟩
  · rw [State.push_stack, stackDepth_cons (by simp), State.emit_stack, ← hpop.depth]
    simp [State.push]
  · rw [State.push_events, openAfter_emit, hpop.opened, State.push_stack,
      openings_cons (by simp), State.emit_stack, hpop.depth]
    rfl

theorem layoutEnd (h : Nested s) (hs : s.top = .layoutBody) :
    Nested (s.pop.emit .layoutEnd) := by
  obtain ⟨frame, rest, hstack, hframe, hsound, hdepth, hopened⟩ := h.innermost hs (by simp)
  have hpop : s.pop.depth = stackDepth rest := by
    rw [State.pop_depth, hdepth]
    simp [hs]
  refine ⟨by simpa [hstack] using hsound.2, by simp [hpop, hstack], ?_⟩
  rw [openAfter_emit, State.pop_events, hopened, openings_cons (by simp [hframe]), hframe, hpop]
  simp [follow, Event.Body.role, Construct.block?, hstack]

theorem slotEnter (h : Nested s) (hs : s.top = .layoutBody) : Nested (s.push .slot) := by
  obtain ⟨frame, rest, hstack, hframe, hsound, hdepth, hopened⟩ := h.innermost hs (by simp)
  refine ⟨⟨by simp [hstack, hframe, Construct.fits], h.sound⟩, ?_, ?_⟩
  · rw [State.push_stack, stackDepth_cons (by simp), ← h.depth]
    simp [State.push]
  · rw [State.push_events, State.push_stack, openings_cons (by simp), h.opened]
    rfl

/-- The name of a slot ends: its text is open, directly in a layout call. -/
theorem slotBegin (h : Nested s) {name : Text.Slice} (hs : s.top = .slot) :
    Nested { (s.emit (.slotBegin name)).push .text with
      depth := ((s.emit (.slotBegin name)).push .text).depth + 2 } := by
  obtain ⟨frame, rest, hstack, hframe, hsound, hdepth, hopened⟩ := h.innermost hs (by simp)
  have htext : frame.construct ≠ .text := by simp [hframe]
  -- A slot stands directly on the body of a layout call: `fits` says so.
  obtain ⟨body, below, rfl, hbody⟩ : ∃ body below, rest = body :: below ∧
      body.construct = .layoutBody := by
    have hfits := hsound.1
    cases rest with
    | nil => simp [hframe, Construct.fits] at hfits
    | cons body below => exact ⟨body, below, rfl, by simpa [hframe, Construct.fits] using hfits⟩
  refine ⟨?_, ?_, ?_⟩
  · show Sound (⟨.text, _⟩ :: (s.emit _).stack)
    rw [State.emit_stack, hstack]
    exact ⟨by simp [hframe, Construct.fits], hsound⟩
  · show (s.emit _).depth + 1 + 2 = stackDepth (⟨.text, _⟩ :: (s.emit _).stack)
    rw [State.emit_stack, State.emit_depth, hstack, stackDepth_text rfl, stackDepth_cons htext,
      hdepth]
    simp [hframe]
  · show openAfter (s.emit _).events = some (openings false (⟨.text, _⟩ :: (s.emit _).stack))
    rw [openAfter_emit, hopened, State.emit_stack, hstack, openings_text_push,
      openings_cons htext, openings_cons htext, openings_cons (by simp [hbody]), hframe, hbody,
      hdepth]
    simp [follow, Event.Body.role, Construct.block?]

theorem slotEnd (h : Nested s) (hs : s.inTextOf (· == .slot) = true) :
    Nested ({ s.pop.pop with depth := s.pop.pop.depth - 2 }.emit .slotEnd) := by
  obtain ⟨t, opener, rest, hstack, ht, hsort, hsound, hdepth, hopened⟩ := h.scope hs
  have hslot : opener.construct = .slot := by simpa using hsort
  have htext : opener.construct ≠ .text := by simp [hslot]
  have hpop : s.pop.pop.depth - 2 = stackDepth rest := by
    rw [stackDepth_cons htext] at hdepth
    simp [State.pop, hstack, ht, hslot, hdepth]
  refine ⟨?_, ?_, ?_⟩
  · rw [State.emit_stack]
    simpa [hstack] using hsound.2
  · rw [State.emit_depth, State.emit_stack]
    simpa [hstack] using hpop
  · have hevents : ({ s.pop.pop with depth := s.pop.pop.depth - 2 } : State).events =
        s.events := by
      show s.pop.pop.events = s.events
      simp
    rw [openAfter_emit, hevents, hopened, openings_cons htext, hslot, hpop]
    simp [follow, Event.Body.role, Construct.block?, hstack]

/-- Every move of the scanner keeps the nesting. -/
theorem move {t : State} (hm : Move s t) (h : Nested s) : Nested t := by
  cases hm with
  | keep n => exact h.congr rfl rfl rfl
  | markup elements closingTag => exact h.congr rfl rfl rfl
  | report fault => exact h.congr rfl rfl (State.report_events s fault)
  | say body hbody _ => exact h.emit body (role_of_isNeutral hbody)
  | enter k hk _ _ => exact h.push hk
  | leave hs => exact h.pop hs
  | become k hs hk _ => exact h.become hs hk
  | header body hs => exact h.header hs
  | otherwise hs => exact h.otherwise hs
  | elseIf hs => exact h.elseIf hs
  | endBlock sort body hb hs => exact h.endBlock hb hs
  | layoutBegin call angles reference arguments hs => exact h.layoutBegin hs
  | layoutEnd hs => exact h.layoutEnd hs
  | slotEnter hs => exact h.slotEnter hs
  | slotBegin name hs => exact h.slotBegin hs
  | slotEnd hs => exact h.slotEnd hs

theorem endDeclaration (h : Nested s) (width : Nat) (hs : s.top.isDeclaration = true) :
    Nested (s.endDeclaration width) := by
  have hpop : Nested s.pop.settle :=
    (h.pop (Construct.isPassive_of_isDeclaration hs)).congr rfl rfl rfl
  have hreport (fault : Fault) : Nested (s.pop.settle.report fault) :=
    hpop.congr rfl rfl (State.report_events _ fault)
  unfold State.endDeclaration
  simp only
  split
  · exact hreport _
  · split
    · split
      · exact hpop.emit _ rfl
      · exact hreport _
    · exact hpop.emit _ rfl

/-- With all its constructs closed, a state has an empty stack: what is left
would be text, and text stands on a construct. -/
theorem stack_eq_nil (h : Nested s) (hs : s.unfinished? = none) : s.stack = [] := by
  have htext : ∀ frame ∈ s.stack, frame.construct = .text := by
    have hfind := Option.map_eq_none_iff.mp hs
    simpa using List.find?_eq_none.mp hfind
  cases hstack : s.stack with
  | nil => rfl
  | cons frame rest =>
      have hsound := h.sound
      rw [hstack] at hsound htext
      have hfits := hsound.1
      rw [htext frame (by simp)] at hfits
      cases rest with
      | nil => exact absurd hfits (by simp [Construct.fits])
      | cons opener below =>
          rw [List.head?_cons, Option.map_some, htext opener (by simp)] at hfits
          exact absurd hfits (by decide)

/-- Where text ends, its depth can be taken off. -/
theorem one_le_depth (h : Nested s) (hs : s.stack ≠ []) (htop : s.top = .text) :
    1 ≤ s.depth := by
  obtain ⟨frame, rest, hstack⟩ := List.exists_cons_of_ne_nil hs
  have hframe : frame.construct = .text := by
    simpa [State.top, hstack] using htop
  have hcount : 1 ≤ textFrames s.stack := by
    rw [hstack, textFrames, List.countP_cons_of_pos (by simpa using hframe)]
    exact Nat.le_add_left 1 _
  rw [h.depth, stackDepth]
  omega

/-- Where a slot ends, the depth of its text can be taken off. -/
theorem three_le_depth (h : Nested s) (hs : s.inTextOf (· == .slot) = true) :
    3 ≤ s.depth := by
  obtain ⟨t, opener, rest, -, -, hsort, -, hdepth, -⟩ := h.scope hs
  rw [hdepth, if_pos (by simpa using hsort)]
  omega

end Nested

theorem nested_invariant : Invariant Nested where
  advance _ _ h := h.congr rfl rfl rfl
  move := Nested.move
  declaration _ width hs h := h.endDeclaration width hs
  newline _ h := (h.emit .lineEnd rfl).congr rfl rfl rfl
  problem s p h := h.congr rfl rfl (s.signal_problem_events p)

theorem nested_start : Nested {} :=
  ⟨trivial, rfl, rfl⟩

/-- A scan that meets no problem ends outside all constructs. -/
theorem stack_settled_of_problems {s : State} (h : Nested s)
    (hproblems : s.finish.problems = []) :
    s.settled.stack = [] ∧ s.finish = s.settled.emit .complete := by
  have hfinish := State.finish_eq s
  cases hu : s.settled.unfinished? with
  | none =>
      rw [hu] at hfinish
      exact ⟨(nested_invariant.settled h).stack_eq_nil hu, hfinish⟩
  | some problem =>
      rw [hu] at hfinish
      rw [hfinish, State.emit_problems] at hproblems
      simp [State.problems, State.signals, State.signal, Signal.problem?] at hproblems

/-- **The events of a scan nest.** For every template, kind and interest:

- every beginning of the stream is one of a well-bracketed word, and its events
  fit what is open, in the sense of `openAfter`;
- at every moment the depth is the one of the stack, so taking off the depth of
  a text or of a slot never stops at zero;
- without problems every block is closed, and `complete` has depth zero. -/
theorem events_nested (setting : Setting) (source : List Char) :
    (∀ es, es <+: events setting source → ∃ opened, openAfter es = some opened ∧
      ∃ rest, Event.WellBracketed (Event.brackets es ++ rest)) ∧
    (∀ read after, read ++ after = source →
      let s := State.through setting {} read after
      s.depth = textFrames s.stack + 2 * slotFrames s.stack ∧
      (s.stack ≠ [] → s.top = .text → 1 ≤ s.depth) ∧
      (s.inTextOf (· == .slot) = true → 3 ≤ s.depth)) ∧
    (problems setting source = [] →
      openAfter (events setting source) = some [] ∧
      Event.WellBracketed (Event.brackets (events setting source)) ∧
      ∃ es line, events setting source = es ++ [⟨line, 0, .complete⟩]) := by
  have hrun : Nested (State.run setting {} source) :=
    nested_invariant.run setting nested_start source
  have hend : Nested (State.run setting {} source).finish := nested_invariant.finish hrun
  refine ⟨?_, ?_, ?_⟩
  · -- The whole stream fits, so each beginning of it does.
    intro es hes
    obtain ⟨opened, hopened⟩ := Event.openAfter_of_prefix hes hend.opened
    exact ⟨opened, hopened, _, Event.wellBracketed_of_openAfter hopened⟩
  · intro read after _ s
    have hs : Nested s := nested_invariant.through setting nested_start read after
    exact ⟨hs.depth, hs.one_le_depth, hs.three_le_depth⟩
  · -- Nothing is on the stack in the end, so nothing is open and the depth is zero.
    intro hproblems
    obtain ⟨hstack, hfinish⟩ := stack_settled_of_problems hrun hproblems
    have hopened : openAfter (events setting source) = some [] := by
      have h := hend.opened
      rw [hfinish, State.emit_stack, hstack] at h
      rw [events_eq, hfinish]
      exact h
    have hdepth : (State.run setting {} source).settled.depth = 0 := by
      rw [(nested_invariant.settled hrun).depth, hstack]
      rfl
    refine ⟨hopened, ?_, ?_⟩
    · simpa [Event.closings] using Event.wellBracketed_of_openAfter hopened
    · rw [events_eq, hfinish, State.emit_events, State.announcement, hdepth]
      split
      · exact ⟨_, _, rfl⟩
      · exact ⟨(State.run setting {} source).settled.events ++ [⟨_, 0, .headerEnd⟩], _, by
          rw [List.append_assoc]
          rfl⟩

/-- A condition with two branches in a slot of a layout call nests without a
problem. -/
theorem events_nested_slot :
    let source := "@layout.l()@define(s)@if(a)x@else y@endif@enddefine@endlayout".toList
    problems {} source = [] ∧ openAfter (events {} source) = some [] :=
  ⟨by decide +kernel, ((events_nested {} _).2.2 (by decide +kernel)).1⟩

end Templating.Scan
