import Templating.Proofs.Scan.Grounded
import Templating.Proofs.Scan.Header
import Templating.Proofs.Scan.Lines

/-!
# Content and the text it stands in

Text and code outside a text are dropped, and so is a slot outside a layout call. The
other directives are obeyed wherever they stand: in the body of a layout call, and
between a keyword and its parenthesis. If each of them is met in a text, content is
said nowhere else, and its depth is that of the blocks around it.
-/

namespace Templating

namespace Event

/-- The event may stand directly in a layout call. -/
def Body.isOfLayout : Body → Bool
  | .lineEnd | .slotBegin _ | .layoutEnd => true
  | _ => false

/-- The event is content: it belongs neither to the header nor to a block that was
opened before it. -/
def Body.isContent (body : Body) : Bool :=
  !body.isHeader &&
    match body.role with
    | .neutral | .opens _ => true
    | _ => false

/-- An event is in place inside these blocks: directly in a layout call there is no
content but slots, and the depth of content is that of the blocks. -/
def Placed (opened : List Opening) (e : Event) : Prop :=
  (opened.head?.map Opening.block = some .layout → e.body.isOfLayout = true) ∧
    (e.body.isContent = true → e.depth = indentation opened)

instance (opened : List Opening) (e : Event) : Decidable (Placed opened e) :=
  inferInstanceAs (Decidable (_ ∧ _))

/-- What belongs to a text does not stand directly in a layout call. -/
def InText : List Event → Prop :=
  Everywhere fun before e _ => e.body.isInline = true →
    ∃ opened ∈ openAfter before, opened.head?.map Opening.block ≠ some .layout

/-- All events of a stream are in place. -/
def InPlace : List Event → Prop :=
  Everywhere fun before e _ => ∃ opened ∈ openAfter before, Placed opened e

instance (es : List Event) : Decidable (InPlace es) :=
  inferInstanceAs (Decidable (Everywhere _ es))

end Event

namespace Scan

open Event (Block Opening InPlace InText Placed indentation openAfter)

variable {s t : State}

/-! ## Saying something -/

theorem openAfter_headerEnd (es : List Event) (line depth : Nat) :
    openAfter (es ++ [⟨line, depth, .headerEnd⟩]) = openAfter es := by
  rw [Event.openAfter_snoc]
  cases h : openAfter es with
  | none => rfl
  | some opened => exact follow_neutral (e := ⟨line, depth, .headerEnd⟩) rfl

/-- Saying something keeps what is said of the open blocks around every event if it holds
of that, and of the end of the header when that is said with it. -/
theorem everywhere_emit {P : Option (List Opening) → Event → Prop} {body : Event.Body}
    (h : Everywhere (fun before e _ => P (openAfter before) e) s.events)
    (hend : s.headerOver = false → P (openAfter s.events) ⟨s.line, s.depth, .headerEnd⟩)
    (hbody : P (openAfter s.events) ⟨s.line, s.depth, body⟩) :
    Everywhere (fun before e _ => P (openAfter before) e) (s.emit body).events := by
  rw [State.emit_events]
  unfold State.announcement
  split
  · exact everywhere_snoc.mpr ⟨h, hbody⟩
  · rename_i hover
    obtain ⟨hover, -⟩ : s.headerOver = false ∧ body.isHeader = false := by simpa using hover
    rw [List.append_cons]
    refine everywhere_snoc.mpr ⟨everywhere_snoc.mpr ⟨h, hend hover⟩, ?_⟩
    rwa [openAfter_headerEnd]

/-! ## Text and code -/

/-- Text and code are said in a text, whatever is said elsewhere. -/
structure Texted (s : State) : Prop where
  nested : Nested s
  inText : InText s.events

namespace Texted

theorem emit (h : InText s.events) {body : Event.Body}
    (hbody : body.isInline = true → ∃ opened ∈ openAfter s.events,
      opened.head?.map Opening.block ≠ some .layout) : InText (s.emit body).events :=
  everywhere_emit (P := fun opened? e => e.body.isInline = true →
    ∃ opened ∈ opened?, opened.head?.map Opening.block ≠ some .layout) h nofun hbody

theorem move (hm : Move s t) (h : Texted s) : Texted t := by
  refine ⟨h.nested.move hm, ?_⟩
  obtain ⟨-, hevents | ⟨u, body, -, huevents, -, htext, hevents⟩⟩ := hm.speaks
  · rw [hevents]
    exact h.inText
  · rw [hevents]
    refine emit (huevents ▸ h.inText) fun hbody => ?_
    rw [huevents]
    exact ⟨_, h.nested.opened,
      head_ne_layout h.nested.sound (onText_iff.mpr (htext hbody))⟩

theorem endDeclaration (h : Texted s) (width : Nat) (hs : s.top.isDeclaration = true) :
    Texted (s.endDeclaration width) := by
  refine ⟨h.nested.endDeclaration width hs, ?_⟩
  obtain ⟨-, hevents | ⟨body, hevents, hbody⟩⟩ := s.endDeclaration_speaks width
  · rw [hevents]
    exact h.inText
  · rw [hevents]
    refine emit (by rw [State.settle_events, State.pop_events]; exact h.inText) ?_
    rcases hbody with rfl | ⟨p, -, rfl⟩ <;> exact nofun

end Texted

theorem texted_invariant : Invariant Texted where
  advance s c h := ⟨nested_invariant.advance s c h.nested, h.inText⟩
  move := Texted.move
  declaration _ width hs h := h.endDeclaration width hs
  newline s h := ⟨nested_invariant.newline s h.nested, Texted.emit h.inText nofun⟩
  problem s p h := ⟨nested_invariant.problem s p h.nested, by
    rw [State.signal_problem_events]
    exact h.inText⟩

theorem texted_start : Texted {} :=
  ⟨nested_start, everywhere_nil _⟩

/-- Text and code never stand directly in a layout call. -/
theorem events_inText (setting : Setting) (source : List Char) :
    InText (events setting source) :=
  (texted_invariant.scanned setting texted_start source).inText

/-! ## What is said in place -/

theorem role_of_isHeader {body : Event.Body} (h : body.isHeader = true) :
    body.role = .neutral := by
  cases body <;> first | rfl | exact absurd h (by simp [Event.Body.isHeader])

/-- No block is open before the header is over. -/
theorem InHeader.openAfter (h : InHeader s) (hover : s.headerOver = false) :
    openAfter s.events = some [] := by
  have hheader := h.before hover
  generalize s.events = es at hheader
  induction es using List.reverseRecOn with
  | nil => rfl
  | append_singleton es e ih =>
      have hes : ∀ x ∈ es, OfHeader x := fun x hx => hheader x (List.mem_append_left _ hx)
      have he : OfHeader e := hheader e (by simp)
      rw [Event.openAfter_snoc, ih hes]
      exact follow_neutral (role_of_isHeader he.1)

/-- Saying something in place leaves all events in place; so does the end of the header
that may be said with it, since no block is open then. -/
theorem inPlace_emit {body : Event.Body} {opened : List Opening} (h : InPlace s.events)
    (hheader : InHeader s) (hopened : openAfter s.events = some opened)
    (hbody : Placed opened ⟨s.line, s.depth, body⟩) : InPlace (s.emit body).events := by
  apply everywhere_emit (P := fun opened? e => ∃ opened ∈ opened?, Placed opened e) h
  · intro hover
    rw [hheader.openAfter hover]
    exact ⟨[], rfl, by simp, by simp [Event.Body.isContent, Event.Body.isHeader]⟩
  · exact ⟨opened, hopened, hbody⟩

/-- In a text anything may be said. -/
theorem placed_of_onText (hn : Nested s) (hg : Grounded s.stack) (ht : OnText s.stack)
    (line : Nat) (body : Event.Body) :
    Placed (openings false s.stack) ⟨line, s.depth, body⟩ := by
  refine ⟨fun hlayout => absurd hlayout (head_ne_layout hn.sound ht), fun _ => ?_⟩
  rw [(rooted hn.sound hg ht).indentation, ← hn.depth]

/-- What is no content may be said in a text at any depth. -/
theorem placed_of_not_isContent (hn : Nested s) (ht : OnText s.stack) (line depth : Nat)
    {body : Event.Body} (h : body.isContent = false) :
    Placed (openings false s.stack) ⟨line, depth, body⟩ :=
  ⟨fun hlayout => absurd hlayout (head_ne_layout hn.sound ht), by simp [h]⟩

/-- Where something that has its place in a text ends, it may be said what it was. -/
theorem inPlace_pop_emit (h : InPlace s.events) (hn : Nested s) (hheader : InHeader s)
    (hg : Grounded s.stack) (hpassive : s.top.isPassive = true) (hs : s.top.needsText = true)
    (body : Event.Body) : InPlace (s.pop.emit body).events := by
  have hpop : Nested s.pop := hn.pop hpassive
  have htail : s.pop.stack = s.stack.tail := State.pop_stack s
  refine inPlace_emit ?_ hheader.pop hpop.opened (placed_of_onText hpop ?_ ?_ _ body)
  · rwa [State.pop_events]
  · rw [htail]
    exact hg.tail
  · rw [htail]
    exact hg.below hs

/-- What has a header stands in a text, and is no block before that but for `@elseif`. -/
theorem passive_of_heads {k : Construct} {body : Event.Body} (h : Heads k body) :
    k.needsText = true ∧ (k.isPassive = true ∨ k = .conditionElseIf ∧ body.isContent = false) := by
  cases h with
  | conditionElseIf code => exact ⟨rfl, Or.inr ⟨rfl, rfl⟩⟩
  | _ => exact ⟨rfl, Or.inl rfl⟩

/-- The header of a construct ends in place. -/
theorem placed_of_heads {body : Event.Body} (hn : Nested s) (hg : Grounded s.stack)
    (hs : Heads s.top body) (line : Nat) :
    Placed (openings false s.stack) ⟨line, s.depth, body⟩ := by
  obtain ⟨hneeds, hpassive | ⟨helse, hcontent⟩⟩ := passive_of_heads hs
  · have hpop : Nested s.pop := hn.pop hpassive
    have hopenings : openings false s.pop.stack = openings false s.stack := by
      apply Option.some.inj
      rw [← hpop.opened, ← hn.opened, State.pop_events]
    have hdepth : s.pop.depth = s.depth := by
      rw [State.pop_depth, if_pos (Or.inr (ne_text_of_isPassive hpassive))]
    have hbelow : OnText s.pop.stack := by
      rw [State.pop_stack]
      exact hg.below hneeds
    rw [← hopenings, ← hdepth]
    exact placed_of_onText hpop (by rw [State.pop_stack]; exact hg.tail) hbelow line body
  · obtain ⟨frame, rest, hstack, hframe, -⟩ := hn.innermost helse (by simp)
    rw [hstack, openings_cons (by simp [hframe]), hframe]
    exact ⟨by simp [Construct.block?], by simp [hcontent]⟩

/-- A slot begins in place, directly in a layout call. -/
theorem placed_of_slotBegin (hn : Nested s) (hg : Grounded s.stack) (hs : s.top = .slot)
    (line : Nat) (name : Text.Slice) :
    Placed (openings false s.stack) ⟨line, s.depth, .slotBegin name⟩ := by
  obtain ⟨frame, call, below, hstack, hframe, hcall, hrooted⟩ := below_slot hn.sound hg hs
  refine ⟨fun _ => rfl, fun _ => ?_⟩
  rw [hn.depth, hstack, openings_cons (by simp [hframe]), openings_cons (by simp [hcall]), hframe,
    hcall, stackDepth_cons (by simp [hframe]), stackDepth_cons (by simp [hcall]),
    ← hrooted.indentation]
  simp [Construct.block?, Event.indentation, Block.levels]

/-- **A deed says things in place.** -/
theorem Deed.inPlace (h : Deed s t) (hn : Nested s) (hheader : InHeader s)
    (hg : Grounded s.stack) (hp : InPlace s.events) : InPlace t.events := by
  -- The end of a block is said where its text was.
  have ended {sort : Construct → Bool} (hs : s.inTextOf sort = true) {u : State}
      (hu : InHeader u) (hevents : u.events = s.events) (body : Event.Body)
      (hbody : body.isContent = false) : InPlace (u.emit body).events :=
    inPlace_emit (by rwa [hevents]) hu (by rw [hevents]; exact hn.opened)
      (placed_of_not_isContent hn (onText_of_inTextOf hs) _ _ hbody)
  cases h with
  | keep n => exact hp
  | markup elements closingTag => exact hp
  | report fault => rwa [State.report_events]
  | inline body _ htop =>
      exact inPlace_emit hp hheader hn.opened
        (placed_of_onText hn hg (onText_iff.mpr htop) _ body)
  | aside k _ _ => exact hp
  | leave _ => rwa [State.pop_events]
  | become k _ _ _ _ => rwa [State.become_events]
  | call call angles reference arguments htop =>
      exact inPlace_pop_emit hp hn hheader hg (by rw [htop]; rfl) (by rw [htop]; rfl) _
  | render slot htop =>
      exact inPlace_pop_emit hp hn hheader hg (by rw [htop]; rfl) (by rw [htop]; rfl) _
  | refuse fault _ => rwa [State.report_events, State.pop_events]
  | header body hheads =>
      exact inPlace_emit hp hheader hn.opened (placed_of_heads hn hg hheads _)
  | endBlock sort body hb hs =>
      rw [State.pop_events]
      exact ended hs hheader.pop (State.pop_events s) body (by cases hb <;> rfl)
  | layoutBegin call angles reference arguments htop =>
      exact inPlace_pop_emit hp hn hheader hg (by rw [htop]; rfl) (by rw [htop]; rfl) _
  | layoutEnd htop =>
      refine inPlace_emit (by rwa [State.pop_events]) hheader.pop
        (by rw [State.pop_events]; exact hn.opened) ?_
      exact ⟨fun _ => rfl, by simp [Event.Body.isContent, Event.Body.role]⟩
  | slotEnter _ => exact hp
  | slotBegin name htop =>
      exact inPlace_emit hp hheader hn.opened (placed_of_slotBegin hn hg htop _ name)
  | slotEnd hs =>
      have hpop : InHeader { s.pop.pop with depth := s.pop.pop.depth - 2 } :=
        hheader.pop.pop.congr rfl rfl
      refine ended hs hpop ?_ .slotEnd rfl
      show s.pop.pop.events = s.events
      simp

/-- What a directive begins, it begins in place. -/
theorem Starts.inPlace {d : Directive} (h : Starts s d t) (hn : Nested s) (hheader : InHeader s)
    (hp : InPlace s.events) : InPlace t.events := by
  cases h with
  | enter _ k _ => exact hp
  | otherwise hs =>
      refine inPlace_emit (by rwa [State.pop_events]) hheader.pop
        (by rw [State.pop_events]; exact hn.opened)
        (placed_of_not_isContent hn (onText_of_inTextOf hs) _ _ rfl)
  | elseIf _ => rwa [State.push_events, State.pop_events, State.pop_events]

/-- What is said of the header is in place before the header is over. -/
theorem inPlace_endDeclaration (hheader : InHeader s) (hp : InPlace s.events) (width : Nat) :
    InPlace (s.endDeclaration width).events := by
  have hpop : InPlace s.pop.settle.events := by rwa [State.settle_events, State.pop_events]
  have hsettled : InHeader s.pop.settle := hheader.pop.congr rfl rfl
  have hreport (fault : Fault) : InPlace (s.pop.settle.report fault).events := by
    rwa [State.report_events]
  unfold State.endDeclaration
  simp only
  split
  · exact hreport _
  · rename_i hover
    have hopened : openAfter s.pop.settle.events = some [] :=
      hsettled.openAfter (by simpa using hover)
    have hsay (body : Event.Body) (hbody : body.isHeader = true) :
        InPlace (s.pop.settle.emit body).events :=
      inPlace_emit hpop hsettled hopened ⟨by simp, by simp [Event.Body.isContent, hbody]⟩
    split
    · split
      · exact hsay _ rfl
      · exact hreport _
    · exact hsay _ rfl

/-! ## A scan without leaks -/

/-- A directive that ends here begins something that has its place in a text, and is
obeyed outside text. -/
def State.Leaks (s : State) (after : List Char) : Prop :=
  ∃ d ∈ s.directive? after, d.construct?.isSome = true ∧ s.top ≠ .text

instance (s : State) (after : List Char) : Decidable (s.Leaks after) :=
  inferInstanceAs (Decidable (∃ d ∈ s.directive? after, _ ∧ _))

/-- Whatever has its place in a text stands on one, and all that was said is in
place. -/
structure Proper (s : State) : Prop where
  nested : Nested s
  header : InHeader s
  grounded : Grounded s.stack
  inPlace : InPlace s.events

namespace Proper

theorem congr (h : Proper s) (hstack : t.stack = s.stack) (hdepth : t.depth = s.depth)
    (hover : t.headerOver = s.headerOver) (hevents : t.events = s.events) : Proper t :=
  ⟨h.nested.congr hstack hdepth hevents, h.header.congr hover hevents, hstack ▸ h.grounded,
    hevents ▸ h.inPlace⟩

theorem deed (h : Proper s) (hdeed : Deed s t) : Proper t :=
  ⟨hdeed.moves.preserves Nested.move h.nested, hdeed.moves.preserves InHeader.move h.header,
    hdeed.grounded h.grounded, hdeed.inPlace h.nested h.header h.grounded h.inPlace⟩

theorem deeds (h : Proper s) (hdeeds : Deeds s t) : Proper t :=
  hdeeds.preserves (fun hdeed hs => hs.deed hdeed) h

theorem endDeclaration (h : Proper s) (hs : s.top.isDeclaration = true) (width : Nat) :
    Proper (s.endDeclaration width) :=
  ⟨h.nested.endDeclaration width hs, h.header.endDeclaration width,
    endDeclaration_grounded h.grounded width, inPlace_endDeclaration h.header h.inPlace width⟩

theorem readChar (h : Proper s) (setting : Setting) (c : Char) (after : List Char)
    (hleak : ¬ s.Leaks after) : Proper (s.readChar setting c after) := by
  by_cases hd : s.top.isDeclaration = true
  · rw [State.readChar_declaration s setting c after hd]
    split
    · exact h.endDeclaration hd 1
    · exact h
  · have hmoves := State.readChar_moves s setting c after (by simpa using hd)
    rcases State.readChar_deeds s setting c after (by simpa using hd) with
      ⟨hdeeds, -⟩ | ⟨d, u, hdirective, hu, hstarts⟩
    · exact h.deeds hdeeds
    · have hhanded : Proper u := h.deeds hu.deeds
      refine ⟨hmoves.preserves Nested.move h.nested, hmoves.preserves InHeader.move h.header, ?_,
        hstarts.inPlace hhanded.nested hhanded.header hhanded.inPlace⟩
      refine hstarts.grounded hhanded.grounded fun hconstruct => ?_
      rw [State.top_of_stack hu.stack]
      by_contra htop
      exact hleak ⟨d, hdirective, hconstruct, htop⟩

theorem newline (h : Proper s) : Proper { s.emit .lineEnd with line := s.line + 1 } := by
  refine ⟨nested_invariant.newline s h.nested, inHeader_invariant.newline s h.header, ?_, ?_⟩
  · show Grounded (s.emit .lineEnd).stack
    rw [State.emit_stack]
    exact h.grounded
  · exact inPlace_emit h.inPlace h.header h.nested.opened
      ⟨fun _ => rfl, by simp [Event.Body.isContent, Event.Body.isHeader]⟩

theorem step (h : Proper s) (setting : Setting) (c : Char) (after : List Char)
    (hleak : ¬ (s.advance c).Leaks after) : Proper (s.step setting c after) := by
  have hadvance : Proper (s.advance c) := h.congr rfl rfl rfl rfl
  have hread := hadvance.readChar setting c after hleak
  unfold State.step State.endLine
  split
  · exact hread.newline
  · exact hread

theorem start : Proper {} :=
  ⟨nested_start, inHeader_start, trivial, everywhere_nil _⟩

/-- A scan that does not leak is proper all the way. -/
theorem through (setting : Setting) {read after : List Char}
    (hleak : Everywhere (fun before c between =>
      ¬ ((State.through setting {} before (c :: between ++ after)).advance c).Leaks
        (between ++ after)) read) : Proper (State.through setting {} read after) := by
  induction read using List.reverseRecOn generalizing after with
  | nil => exact start
  | append_singleton read c ih =>
      obtain ⟨hbefore, hlast⟩ := everywhere_snoc.mp hleak
      rw [State.through_snoc]
      refine (ih ?_).step setting c after hlast
      simpa using hbefore

theorem settled (h : Proper s) : Proper s.settled := by
  unfold State.settled
  simp only
  split
  · rename_i htop
    refine deeds ?_ (State.deeds_flush_settle _ 0)
    exact h.endDeclaration (by rcases htop with htop | htop <;> rw [htop] <;> rfl) 0
  · exact h.deeds (State.deeds_flush_settle s 0)

end Proper

/-! ## Between a keyword and its parenthesis -/

/-- The keyword of the construct is followed by a parenthesis. -/
def Construct.isHeaded : Construct → Bool
  | condition | conditionElseIf | loop | slot | render => true
  | _ => false

/-- The parenthesis behind a keyword, or the text behind that. -/
def Construct.isHeader : Construct → Bool
  | parentheses | loopHeader | text => true
  | _ => false

/-- The parenthesis of a keyword has not been read; `begun` says that it is on the
stack, or the text behind it. -/
def awaits (begun : Bool) : List Frame → Bool
  | [] => false
  | frame :: rest =>
      (!begun && frame.construct.isHeaded) || awaits frame.construct.isHeader rest

/-- When `c` is read, the parenthesis of a keyword is awaited; where `c` ends the name
of a slot or of a place for one, that of a keyword around it. -/
def State.waits (s : State) (c : Char) : Bool :=
  awaits false
    (if c = ')' ∧ (s.top = .slot ∨ s.top = .render) then s.stack.tail else s.stack)

/-- In a text no parenthesis is awaited. -/
theorem Rooted.awaits {stack : List Frame} (h : Rooted stack) (begun : Bool) :
    awaits begun stack = false := by
  induction h generalizing begun with
  | nil => rfl
  | @block t opener rest ht hopener _ ih =>
      simp [Scan.awaits, ht, Construct.isHeaded, Construct.isHeader, ih]
  | @slot t slot call rest ht hslot hcall _ ih =>
      simp [Scan.awaits, ht, hslot, hcall, Construct.isHeaded, Construct.isHeader, ih]

theorem Construct.cases_of_place (k : Construct) :
    k = .text ∨ k.needsText = true ∨ k.isAside = true ∨ k.isHeaded = true := by
  cases k <;> simp [needsText, isAside, isHeaded]

/-- Where a parenthesis is awaited, its construct is innermost, or something aside is
that stands neither on text nor, being a parenthesis itself, on the construct. -/
theorem awaits_cases (hs : Sound s.stack) (hg : Grounded s.stack)
    (h : awaits false s.stack = true) :
    s.top.isHeaded = true ∨ s.top.isAside = true ∧ s.pop.top ≠ .text ∧
      (s.top.isHeader = true → s.pop.top.needsText = false) := by
  cases hstack : s.stack with
  | nil =>
      rw [hstack] at h
      cases h
  | cons frame rest =>
      have htop : s.top = frame.construct := by rw [State.top, hstack]
      have hpop : s.pop.stack = rest := by rw [State.pop_stack, hstack, List.tail_cons]
      rw [hstack] at hs hg h
      rw [htop, or_iff_not_imp_left]
      intro hheaded
      have hrest : awaits frame.construct.isHeader rest = true := by
        simpa [awaits, hheaded] using h
      have hbelow : ¬ OnText rest := by
        intro hrooted
        rw [(rooted hs.2 hg.2 hrooted).awaits] at hrest
        cases hrest
      refine ⟨?_, fun htext => hbelow (hpop ▸ onText_iff.mpr htext), ?_⟩
      · rcases frame.construct.cases_of_place with htext | hneeds | haside | hheaded'
        · have hon : OnText (frame :: rest) := fun x hx => Option.some.inj hx ▸ htext
          rw [(rooted hs hg hon).awaits] at h
          cases h
        · exact absurd (hg.1 hneeds) hbelow
        · exact haside
        · exact absurd hheaded' hheaded
      · intro hheader
        by_contra hneeds
        rw [hheader] at hrest
        unfold State.top at hneeds
        rw [hpop] at hneeds
        cases rest with
        | nil => cases hrest
        | cons below bottom =>
            have hrooted : Rooted bottom :=
              rooted hs.2.2 hg.2.2 (hg.2.1 (by simpa using hneeds))
            simp [awaits, hrooted.awaits] at hrest

/-! Nothing is said there. -/

namespace State

/-- Code that does not stand on text is dropped. -/
theorem closeBrace_events (h : s.pop.top ≠ .text) : s.closeBrace.events = s.events := by
  unfold closeBrace
  split
  · exact pop_events s
  · simp [h]
  · simp [h]
  · rfl

/-- A parenthesis that is not that of a keyword ends without a word. -/
theorem closeParenthesis_events (haside : s.top.isAside = true)
    (h : s.top.isHeader = true → s.pop.top.needsText = false) :
    s.closeParenthesis.events = s.events := by
  unfold closeParenthesis
  split
  · rename_i htop
    have hbelow := h (by rw [htop]; rfl)
    simp only
    split
    · rename_i hpop
      rw [hpop] at hbelow
      cases hbelow
    · rename_i hpop
      rw [hpop] at hbelow
      cases hbelow
    · exact pop_events s
  · rename_i htop
    have hbelow := h (by rw [htop]; rfl)
    simp only
    split
    · rename_i hpop
      rw [hpop] at hbelow
      cases hbelow
    · exact pop_events s
  · rename_i htop
    rw [htop] at haside
    cases haside
  · rfl

theorem readCode_events (c : Char) (after : List Char) (haside : s.top.isAside = true)
    (htext : s.pop.top ≠ .text) (h : s.top.isHeader = true → s.pop.top.needsText = false) :
    (s.readCode c after).events = s.events := by
  unfold readCode
  split
  · rfl
  · rfl
  · exact closeBrace_events htext
  · unfold openParenthesis
    split <;> rfl
  · exact closeParenthesis_events haside h
  · unfold splitArgument
    split <;> simp
  · unfold openAngle
    split
    · split <;> simp
    · rfl
  · unfold closeAngle
    split
    · split <;> simp
    · rfl
  · rfl

theorem readString_events (c : Char) (escaping : Bool) :
    (s.readString c escaping).events = s.events := by
  unfold readString
  split
  · simp
  · split <;> simp

/-- Outside text a directive is obeyed without a word, but for the end of a layout call,
if it begins nothing that has its place in a text. -/
theorem obey_events {d : Directive} (htext : s.top ≠ .text) (hlayout : s.top ≠ .layoutBody)
    (hd : d.construct? = none) : (s.obey d).events = s.events := by
  have hflush (n : Nat) : s.flush n = s := s.flush_of_top_ne_text n htext
  have hin := s.inTextOf_eq_false htext
  cases d with
  | comment => simp [obey, hflush]
  | expression escaping => simp [obey, begin, hflush]
  | statement => simp [obey, begin, hflush]
  | conditionElse =>
      simp only [obey, conditionElse, hin, Bool.false_eq_true, if_false]
      exact s.report_events _
  | conditionElseIf =>
      simp only [obey, conditionElseIf, hin, Bool.false_eq_true, if_false]
      exact s.report_events _
  | conditionEnd =>
      simp only [obey, endBlock, hin, Bool.false_eq_true, if_false]
      exact s.report_events _
  | loopEnd =>
      simp only [obey, endBlock, hin, Bool.false_eq_true, if_false]
      exact s.report_events _
  | slotEnd =>
      simp only [obey, endSlot, hin, Bool.false_eq_true, if_false]
      exact s.report_events _
  | layoutEnd =>
      simp only [obey, endLayout, hlayout, if_false]
      exact s.report_events _
  | slotBegin =>
      simp only [obey, beginSlot, hlayout, if_false]
      exact s.report_events _
  | _ => cases hd

/-- Around a slot, and around a place for one, no parenthesis is awaited. -/
theorem waits_eq_true (hs : Sound s.stack) (hg : Grounded s.stack) {c : Char}
    (h : s.waits c = true) :
    awaits false s.stack = true ∧ (c = ')' → s.top ≠ .slot ∧ s.top ≠ .render) := by
  unfold waits at h
  split at h
  · rename_i hend
    exfalso
    rcases hend.2 with htop | htop
    · obtain ⟨frame, call, below, hstack, -, hcall, hrooted⟩ := below_slot hs hg htop
      rw [hstack] at h
      simp [awaits, hcall, Construct.isHeaded, hrooted.awaits] at h
    · rw [(rooted hs.tail hg.tail (hg.below (by rw [htop]; rfl))).awaits] at h
      cases h
  · rename_i hend
    refine ⟨h, fun hc => ?_⟩
    rw [hc] at hend
    simpa using hend

/-- **While the parenthesis of a keyword is awaited, nothing is said.** -/
theorem readChar_waiting (setting : Setting) (c : Char) (after : List Char)
    (hs : Sound s.stack) (hg : Grounded s.stack) (hleak : ¬ s.Leaks after)
    (hwaits : s.waits c = true) : (s.readChar setting c after).events = s.events := by
  obtain ⟨hawaits, hend⟩ := waits_eq_true hs hg hwaits
  rcases awaits_cases hs hg hawaits with hheaded | ⟨haside, htext, hbelow⟩
  · have hreads : s.top.readsText = true := by
      cases htop : s.top <;> simp_all [Construct.isHeaded, Construct.readsText]
    have htext : s.top ≠ .text := by
      intro htop
      rw [htop] at hheaded
      cases hheaded
    have hlayout : s.top ≠ .layoutBody := by
      intro htop
      rw [htop] at hheaded
      cases hheaded
    rw [readChar_readsText s setting c after hreads]
    unfold readText
    split
    · rename_i d hd
      refine obey_events htext hlayout ?_
      by_contra hconstruct
      refine hleak ⟨d, ?_, Option.isSome_iff_ne_none.mpr hconstruct, htext⟩
      rw [directive?, if_pos hreads]
      exact hd
    · split
      · unfold parenthesisBegins
        split <;> simp
      · obtain ⟨hslot, hrender⟩ := hend rfl
        unfold parenthesisEnds
        split
        · rename_i htop
          exact absurd htop hslot
        · rename_i htop
          exact absurd htop hrender
        · rfl
      · rename_i htop _
        exact absurd htop htext
      · rfl
  · unfold readChar
    split
    · split <;> simp
    · exact readString_events c _
    all_goals
      rename_i htop
      first
      | exact readCode_events c after haside htext hbelow
      | (rw [htop] at haside; cases haside)

end State

/-- Reading `c` ends the line, or says nothing. -/
def Silent (s t : State) : Prop :=
  ∃ more, t.events = s.events ++ more ∧ ∀ e ∈ more, e.body = .lineEnd

/-- A character read while a parenthesis is awaited may end the line, and no more. -/
theorem Proper.step_waiting (h : Proper s) (setting : Setting) {c : Char} {after : List Char}
    (hleak : ¬ (s.advance c).Leaks after) (hwaits : s.waits c = true) :
    Silent s (s.step setting c after) := by
  have hread : ((s.advance c).readChar setting c after).events = s.events :=
    State.readChar_waiting setting c after h.nested.sound h.grounded hleak hwaits
  unfold State.step State.endLine Silent
  split
  · have hline : (((s.advance c).readChar setting c after).emit .lineEnd).events =
        s.events ++ ((s.advance c).readChar setting c after).announcement .lineEnd := by
      rw [State.emit_events, hread]
    exact ⟨_, hline, by simp [State.announcement, Event.Body.isHeader]⟩
  · exact ⟨[], by simpa using hread, by simp⟩

end Scan

end Templating
