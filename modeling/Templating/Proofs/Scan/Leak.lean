import Templating.Proofs.Scan.Framing
import Templating.Proofs.Scan.Placement

/-!
# Leaks

A directive that is obeyed outside text leaves a construct on the stack that stands
where nothing may be said. It stays there until something is said of it, or a problem
is reported: so every leak shows. Together with what is said in place without a leak
this tells exactly in which templates content is said nowhere but in a text.
-/

namespace Templating.Scan

open Event (Block Opening InPlace InText Placed openAfter)

/-! ## Exposed constructs -/

variable {f x y : Frame} {rest stack : List Frame}

/-- A construct that has its place in a text stands on the frame `f`. In the body of a
layout call it has no text of its own. -/
def Exposed (f : Frame) (rest stack : List Frame) : Prop :=
  ∃ above k, stack = above ++ k :: f :: rest ∧ k.construct.needsText = true ∧
    (f.construct = .layoutBody → k.construct.isPassive = true ∧
      ∀ x ∈ above.getLast?, x.construct ≠ .text)

namespace Exposed

theorem ne_nil (h : Exposed f rest stack) : stack.tail ≠ [] := by
  obtain ⟨above, k, rfl, -⟩ := h
  cases above <;> simp

theorem append_ne (above : List Frame) (k : Frame) : above ++ k :: f :: rest ≠ f :: rest := by
  intro h
  have hlength := congrArg List.length h
  simp at hlength
  omega

/-- The exposed construct is innermost when the frame is the next one. -/
theorem base (h : Exposed f rest (x :: f :: rest)) :
    x.construct.needsText = true ∧ (f.construct = .layoutBody → x.construct.isPassive = true) := by
  obtain ⟨above, k, hstack, hk, hlayout⟩ := h
  cases above with
  | nil =>
      obtain ⟨rfl, -⟩ := List.cons.inj hstack
      exact ⟨hk, fun hf => (hlayout hf).1⟩
  | cons y above => exact absurd (List.cons.inj hstack).2.symm (append_ne above k)

/-- In the body of a layout call no text stands on the exposed construct. -/
theorem uncovered (h : Exposed f rest (x :: y :: f :: rest)) (hf : f.construct = .layoutBody) :
    x.construct ≠ .text := by
  obtain ⟨above, k, hstack, -, hlayout⟩ := h
  match above with
  | [] =>
      exact absurd (List.cons.inj hstack).2 (append_ne [] y)
  | [z] =>
      obtain ⟨rfl, -⟩ := List.cons.inj hstack
      exact (hlayout hf).2 x rfl
  | z :: w :: above =>
      exact absurd (List.cons.inj (List.cons.inj hstack).2).2.symm (append_ne above k)

theorem cons (h : Exposed f rest stack)
    (hx : x.construct = .text → f.construct = .layoutBody → stack.tail ≠ f :: rest) :
    Exposed f rest (x :: stack) := by
  obtain ⟨above, k, rfl, hk, hlayout⟩ := h
  refine ⟨x :: above, k, rfl, hk, fun hf => ⟨(hlayout hf).1, ?_⟩⟩
  cases above with
  | nil =>
      intro z hz htext
      obtain rfl := Option.some.inj hz
      exact hx htext hf rfl
  | cons z above =>
      rw [List.getLast?_cons_cons]
      exact (hlayout hf).2

/-- Something else ends, or what is exposed does. -/
theorem tail (h : Exposed f rest (x :: stack)) : Exposed f rest stack ∨ stack = f :: rest := by
  obtain ⟨above, k, hstack, hk, hlayout⟩ := h
  cases above with
  | nil => exact Or.inr (List.cons.inj hstack).2
  | cons z above =>
      refine Or.inl ⟨above, k, (List.cons.inj hstack).2, hk, fun hf => ⟨(hlayout hf).1, ?_⟩⟩
      cases above with
      | nil => simp
      | cons w above =>
          have hlast := (hlayout hf).2
          rwa [List.getLast?_cons_cons] at hlast

/-- Something else ends if the innermost construct has its place anywhere. -/
theorem tail_of (h : Exposed f rest (x :: stack)) (hx : x.construct.needsText = false) :
    Exposed f rest stack := by
  refine h.tail.resolve_right ?_
  rintro rfl
  rw [h.base.1] at hx
  cases hx

/-- The innermost construct goes on as another one. -/
theorem become (h : Exposed f rest (x :: stack))
    (hneeds : x.construct.needsText = y.construct.needsText)
    (hpassive : y.construct.isPassive = true) : Exposed f rest (y :: stack) := by
  rcases h.tail with htail | rfl
  · exact htail.cons fun htext => absurd htext (ne_text_of_isPassive hpassive)
  · exact ⟨[], y, rfl, hneeds ▸ h.base.1, fun _ => ⟨hpassive, by simp⟩⟩

end Exposed

/-! ## What shows a leak -/

/-- What is said from `es` on shows that something is exposed on `f`: a problem is
reported, or something stands where nothing may be said. -/
def Betrays (f : Frame) (es : List Event) (t : State) : Prop :=
  t.problems ≠ [] ∨
    if f.construct = .layoutBody then ¬ InPlace t.events
    else ∃ more, t.events = es ++ more ∧ ∃ e ∈ more, e.body ≠ .lineEnd

variable {s t : State} {es : List Event}

/-- What a stream begins with is in place if all of it is. -/
theorem inPlace_of_isPrefix {es fs : List Event} (h : es <+: fs) (hfs : InPlace fs) :
    InPlace es := by
  obtain ⟨more, rfl⟩ := h
  rintro before e after rfl
  exact hfs before e (after ++ more) (by simp)

/-- A leak that shows, goes on showing. -/
theorem Betrays.mono (h : Betrays f es s) (hst : s.signals <+: t.signals) : Betrays f es t := by
  have hevents : s.events <+: t.events := hst.filterMap _
  rcases h with hproblems | h
  · refine Or.inl fun hnone => hproblems ?_
    have hprefix : s.problems <+: t.problems := hst.filterMap _
    rw [hnone] at hprefix
    exact List.prefix_nil.mp hprefix
  · right
    split at h
    · rw [if_pos ‹_›]
      exact fun ht => h (inPlace_of_isPrefix hevents ht)
    · rw [if_neg ‹_›]
      obtain ⟨more, hmore, e, he, hbody⟩ := h
      obtain ⟨further, hfurther⟩ := hevents
      refine ⟨more ++ further, ?_, e, List.mem_append_left _ he, hbody⟩
      rw [← hfurther, hmore, List.append_assoc]

/-- What is said of an exposed construct shows the leak. -/
theorem betrays_emit {u : State} {body : Event.Body} (hes : es <+: u.events)
    (hline : body ≠ .lineEnd)
    (hlayout : f.construct = .layoutBody → body.isOfLayout = false ∧
      ∃ opened ∈ openAfter u.events, opened.head?.map Opening.block = some .layout) :
    Betrays f es (u.emit body) := by
  right
  have hlast : (u.emit body).events =
      u.events ++ (u.announcement body).dropLast ++ [⟨u.line, u.depth, body⟩] := by
    rw [State.emit_events, List.append_assoc]
    unfold State.announcement
    split <;> rfl
  split
  · rename_i hf
    obtain ⟨hbody, opened, hopened, hhead⟩ := hlayout hf
    intro hplaced
    rw [hlast] at hplaced
    obtain ⟨-, opened', hopened', hbodyPlaced⟩ := everywhere_snoc.mp hplaced
    have hsame : openAfter (u.events ++ (u.announcement body).dropLast) = openAfter u.events := by
      unfold State.announcement
      split
      · simp
      · exact openAfter_headerEnd _ _ _
    rw [hsame] at hopened'
    obtain rfl := Option.some.inj (Option.mem_def.mp hopened' ▸ Option.mem_def.mp hopened)
    rw [hbodyPlaced.1 hhead] at hbody
    cases hbody
  · obtain ⟨more, hmore⟩ := hes
    refine ⟨more ++ (u.announcement body).dropLast ++ [⟨u.line, u.depth, body⟩], ?_,
      ⟨u.line, u.depth, body⟩, by simp, hline⟩
    rw [hlast, ← hmore]
    simp

/-- What has been said stays said. -/
theorem Deed.signals (h : Deed s t) : s.signals <+: t.signals := by
  have emit (u : State) (body : Event.Body) (hu : u.signals = s.signals) :
      s.signals <+: (u.emit body).signals := by
    rw [State.emit_signals, hu]
    exact List.prefix_append _ _
  have report (u : State) (fault : Fault) (hu : u.signals = s.signals) :
      s.signals <+: (u.report fault).signals :=
    ⟨[.problem ⟨u.line, fault⟩], by rw [← hu]; simp [State.signals, State.report, State.signal]⟩
  cases h with
  | keep n => exact List.prefix_refl _
  | markup elements closingTag => exact List.prefix_refl _
  | report fault => exact report s fault rfl
  | inline body _ _ => exact emit s body rfl
  | aside k _ _ => exact List.prefix_refl _
  | leave _ => simp
  | become k _ _ _ _ => simp
  | call call angles reference arguments _ => exact emit s.pop _ s.pop_signals
  | render slot _ => exact emit s.pop _ s.pop_signals
  | refuse fault _ => exact report s.pop fault s.pop_signals
  | header body _ => exact emit s body rfl
  | endBlock sort body _ _ =>
      rw [State.pop_signals]
      exact emit s.pop body s.pop_signals
  | layoutBegin call angles reference arguments _ => exact emit s.pop _ s.pop_signals
  | layoutEnd _ => exact emit s.pop _ s.pop_signals
  | slotEnter _ => exact List.prefix_refl _
  | slotBegin name _ => exact emit s _ rfl
  | slotEnd _ =>
      refine emit { s.pop.pop with depth := s.pop.pop.depth - 2 } .slotEnd ?_
      show s.pop.pop.signals = s.signals
      rw [State.pop_signals, State.pop_signals]

/-! ## What is exposed stays exposed until it shows -/

/-- What is exposed in the body of a layout call stands directly there. -/
theorem head_layout (hn : Nested s) (hstack : s.stack = x :: f :: rest)
    (hf : f.construct = .layoutBody) (hx : x.construct.isPassive = true) :
    ∃ opened ∈ openAfter s.events, opened.head?.map Opening.block = some .layout := by
  refine ⟨_, hn.opened, ?_⟩
  rw [hstack, openings_cons_passive hx, openings_cons (by simp [hf]), hf]
  rfl

/-- **A deed leaves what is exposed exposed, or it shows.** -/
theorem Deed.exposed (h : Deed s t) (hn : Nested s) (hes : es <+: s.events)
    (he : Exposed f rest s.stack) : Exposed f rest t.stack ∨ Betrays f es t := by
  have hne : s.stack ≠ [] := by
    intro hnil
    rw [hnil] at he
    exact he.ne_nil rfl
  obtain ⟨top, stack, hstack⟩ := List.exists_cons_of_ne_nil hne
  have htop : s.top = top.construct := by rw [State.top, hstack]
  have hpop : s.pop.stack = stack := by rw [State.pop_stack, hstack, List.tail_cons]
  rw [hstack] at he
  -- What ends is something else, or it is said of what is exposed.
  have ended (body : Event.Body) (hline : body ≠ .lineEnd) (hbody : body.isOfLayout = false) :
      Exposed f rest stack ∨ Betrays f es (s.pop.emit body) := by
    rcases he.tail with htail | rfl
    · exact Or.inl htail
    · refine Or.inr (betrays_emit (by rwa [State.pop_events]) hline fun hf => ⟨hbody, ?_⟩)
      rw [State.pop_events]
      exact head_layout hn hstack hf (he.base.2 hf)
  cases h with
  | keep n => exact Or.inl (hstack ▸ he)
  | markup elements closingTag => exact Or.inl (hstack ▸ he)
  | report fault => exact Or.inl (hstack ▸ he)
  | inline body _ _ =>
      rw [State.emit_stack, hstack]
      exact Or.inl he
  | aside k hk _ =>
      rw [State.push_stack, hstack]
      refine Or.inl (he.cons fun htext => ?_)
      exact absurd htext (ne_text_of_isPassive (Construct.isPassive_of_isAside hk))
  | leave hs =>
      rw [hpop]
      exact Or.inl (he.tail_of (htop ▸ not_needsText_of_isAside hs))
  | become k hs hk _ haside =>
      simp only [State.become, hstack]
      refine Or.inl (he.become ?_ hk)
      rw [needsText_of_isPassive (htop ▸ hs), needsText_of_isPassive hk, haside, htop]
  | call call angles reference arguments hs =>
      rw [State.emit_stack, hpop]
      exact ended _ (by simp) rfl
  | render slot hs =>
      rw [State.emit_stack, hpop]
      exact ended _ (by simp) rfl
  | refuse fault hs =>
      rw [State.report_stack, hpop]
      refine he.tail.imp id fun _ => Or.inl ?_
      rw [State.report_problems]
      simp
  | header body hs =>
      obtain ⟨hline, hbody⟩ : body ≠ .lineEnd ∧ body.isOfLayout = false := by
        generalize s.top = k at hs
        cases hs <;> exact ⟨by simp, rfl⟩
      rw [State.push_stack, State.emit_stack, hstack]
      -- A text may cover what is exposed, but not unseen in the body of a layout call.
      by_cases hbase : f.construct = .layoutBody ∧ stack = f :: rest
      · obtain ⟨hf, rfl⟩ := hbase
        have hbetrays : Betrays f es (s.emit body) :=
          betrays_emit hes hline fun hf => ⟨hbody, head_layout hn hstack hf (he.base.2 hf)⟩
        exact Or.inr hbetrays
      · exact Or.inl (he.cons fun _ hf hstack => hbase ⟨hf, hstack⟩)
  | endBlock sort body hb hs =>
      obtain ⟨text, opener, below, hscope, htext, -⟩ := State.inTextOf_eq_true s hs
      obtain ⟨rfl, rfl⟩ := List.cons.inj (hstack.symm.trans hscope)
      have hopener : Exposed f rest (opener :: below) := he.tail_of (by rw [htext]; rfl)
      rw [State.pop_stack, State.emit_stack, hpop, List.tail_cons]
      refine hopener.tail.imp id ?_
      rintro rfl
      have hbetrays : Betrays f es (s.pop.emit body) :=
        betrays_emit (by rwa [State.pop_events]) (by cases hb <;> simp) fun hf =>
          absurd htext (he.uncovered hf)
      exact hbetrays.mono (by simp)
  | layoutBegin call angles reference arguments hs =>
      rw [State.push_stack, State.emit_stack, hpop]
      rcases ended (.call .layout reference arguments) (by simp) rfl with hended | hbetrays
      · exact Or.inl (hended.cons (by simp))
      · exact Or.inr hbetrays
  | layoutEnd hs =>
      rw [State.emit_stack, hpop]
      refine he.tail.imp id ?_
      rintro rfl
      refine betrays_emit (by rwa [State.pop_events]) (by simp) fun hf => ?_
      have hpassive := he.base.2 hf
      rw [← htop, hs] at hpassive
      cases hpassive
  | slotEnter hs =>
      rw [State.push_stack, hstack]
      exact Or.inl (he.cons (by simp))
  | slotBegin name hs =>
      show Exposed f rest (⟨.text, _⟩ :: (s.emit _).stack) ∨ _
      rw [State.emit_stack, hstack]
      refine Or.inl (he.cons fun _ _ hbase => ?_)
      obtain rfl : stack = f :: rest := hbase
      have hneeds := he.base.1
      rw [← htop, hs] at hneeds
      cases hneeds
  | slotEnd hs =>
      obtain ⟨text, opener, below, hscope, htext, hsort⟩ := State.inTextOf_eq_true s hs
      obtain ⟨rfl, rfl⟩ := List.cons.inj (hstack.symm.trans hscope)
      have hslot : opener.construct = .slot := by simpa using hsort
      rw [State.emit_stack]
      show Exposed f rest s.pop.pop.stack ∨ _
      rw [State.pop_stack, hpop]
      exact Or.inl ((he.tail_of (by rw [htext]; rfl)).tail_of (by rw [hslot]; rfl))

/-- So does what a directive starts. -/
theorem Starts.exposed {d : Directive} (h : Starts s d t) (he : Exposed f rest s.stack) :
    Exposed f rest t.stack := by
  cases h with
  | enter _ k hk =>
      refine he.cons fun htext => ?_
      exact absurd htext (ne_text_of_isPassive (Construct.isPassive_of_construct? hk))
  | otherwise hin =>
      obtain ⟨text, opener, below, hstack, htext, -⟩ := State.inTextOf_eq_true s hin
      rw [State.push_stack, State.emit_stack, State.pop_stack]
      rw [hstack] at he ⊢
      refine (he.tail_of (by rw [htext]; rfl)).cons fun _ hf hbase => ?_
      obtain rfl : below = f :: rest := hbase
      exact he.uncovered hf htext
  | elseIf hin =>
      obtain ⟨text, opener, below, hstack, htext, -⟩ := State.inTextOf_eq_true s hin
      rw [State.push_stack, State.pop_stack, State.pop_stack]
      rw [hstack] at he ⊢
      -- If the condition itself was exposed, its next branch is.
      rcases (he.tail_of (by rw [htext]; rfl)).tail with hbelow | rfl
      · exact hbelow.cons (by simp)
      · exact ⟨[], _, rfl, rfl, fun hf => absurd htext (he.uncovered hf)⟩

/-- A declaration ends, or the one that is exposed does and shows it. -/
theorem exposed_endDeclaration (hn : Nested s) (hes : es <+: s.events) (width : Nat)
    (he : Exposed f rest s.stack) :
    Exposed f rest (s.endDeclaration width).stack ∨ Betrays f es (s.endDeclaration width) := by
  rw [State.endDeclaration_stack]
  cases hstack : s.stack with
  | nil =>
      rw [hstack] at he
      exact absurd rfl he.ne_nil
  | cons top stack =>
      rw [hstack] at he
      refine he.tail.imp id ?_
      rintro rfl
      have hreport (fault : Fault) : Betrays f es (s.pop.settle.report fault) := by
        left
        rw [State.report_problems]
        simp
      have hsay (body : Event.Body) (hline : body ≠ .lineEnd) (hbody : body.isOfLayout = false) :
          Betrays f es (s.pop.settle.emit body) := by
        have hevents : s.pop.settle.events = s.events := by simp
        refine betrays_emit (by rwa [hevents]) hline fun hf => ⟨hbody, ?_⟩
        rw [hevents]
        exact head_layout hn hstack hf (he.base.2 hf)
      unfold State.endDeclaration
      simp only
      split
      · exact hreport _
      · split
        · split
          · exact hsay _ (by simp) rfl
          · exact hreport _
        · exact hsay _ (by simp) rfl

theorem Deeds.exposed (h : Deeds s t) (hn : Nested s) (hes : es <+: s.events)
    (he : Exposed f rest s.stack) : Exposed f rest t.stack ∨ Betrays f es t := by
  have hkept : Nested t ∧ es <+: t.events ∧ (Exposed f rest t.stack ∨ Betrays f es t) := by
    refine h.preserves (P := fun u => Nested u ∧ es <+: u.events ∧
      (Exposed f rest u.stack ∨ Betrays f es u)) ?_ ⟨hn, hes, Or.inl he⟩
    rintro u v hdeed ⟨hu, hues, hexposed⟩
    refine ⟨hdeed.moves.preserves Nested.move hu, hues.trans (hdeed.signals.filterMap _), ?_⟩
    rcases hexposed with hexposed | hbetrays
    · exact hdeed.exposed hu hues hexposed
    · exact Or.inr (hbetrays.mono hdeed.signals)
  exact hkept.2.2

/-- **Reading a character leaves what is exposed exposed, or it shows.** -/
theorem exposed_readChar (hn : Nested s) (he : Exposed f rest s.stack) (setting : Setting)
    (c : Char) (after : List Char) : Exposed f rest (s.readChar setting c after).stack ∨
      Betrays f s.events (s.readChar setting c after) := by
  by_cases hd : s.top.isDeclaration = true
  · rw [State.readChar_declaration s setting c after hd]
    split
    · exact exposed_endDeclaration hn (List.prefix_refl _) 1 he
    · exact Or.inl he
  · rcases State.readChar_deeds s setting c after (by simpa using hd) with
      ⟨hdeeds, -⟩ | ⟨d, u, -, hu, hstarts⟩
    · exact hdeeds.exposed hn (List.prefix_refl _) he
    · exact Or.inl (hstarts.exposed (hu.stack ▸ he))

theorem exposed_step (hn : Nested s) (he : Exposed f rest s.stack) (setting : Setting)
    (c : Char) (after : List Char) : Exposed f rest (s.step setting c after).stack ∨
      Betrays f s.events (s.step setting c after) := by
  have hread := exposed_readChar (nested_invariant.advance s c hn) he setting c after
  unfold State.step State.endLine
  split
  · refine hread.imp (fun he => ?_) fun hbetrays => hbetrays.mono ?_
    · show Exposed f rest (State.emit _ .lineEnd).stack
      rwa [State.emit_stack]
    · show _ <+: (State.emit _ .lineEnd).signals
      rw [State.emit_signals]
      exact List.prefix_append _ _
  · exact hread

/-! ## Every leak shows -/

theorem awaits_append (above : List Frame) {k : Frame} (hk : k.construct.needsText = true)
    (hf : f.construct.isHeaded = true) (begun : Bool) :
    awaits begun (above ++ k :: f :: rest) = true := by
  induction above generalizing begun with
  | nil =>
      have hheader : k.construct.isHeader = false := by
        cases h : k.construct <;> simp_all [Construct.needsText, Construct.isHeader]
      simp [awaits, hheader, hf]
  | cons x above ih => simp [awaits, ih]

/-- Under what is exposed on a keyword's construct its parenthesis is awaited. -/
theorem Exposed.waits (he : Exposed f rest s.stack) (hf : f.construct.isHeaded = true) (c : Char) :
    s.waits c = true := by
  obtain ⟨above, k, hstack, hk, -⟩ := he
  unfold State.waits
  rw [hstack]
  split
  · cases above with
    | nil => simp [awaits, hf]
    | cons x above => exact awaits_append above hk hf false
  · exact awaits_append above hk hf false

/-- Where nothing shows a leak, what is exposed stays exposed to the end. -/
theorem exposed_run {setting : Setting} {source : List Char}
    (hf : f.construct ≠ .layoutBody → f.construct.isHeaded = true)
    (hproblems : problems setting source = []) (hplaced : InPlace (events setting source))
    (hsilent : Everywhere (fun read c after =>
      let s := State.through setting {} read (c :: after)
      s.waits c = true → Silent s (s.step setting c after)) source)
    {read after : List Char} (hsource : source = read ++ after)
    (he : Exposed f rest (State.through setting {} read after).stack) :
    Exposed f rest (State.run setting {} source).stack := by
  induction after generalizing read with
  | nil =>
      rw [List.append_nil] at hsource
      rwa [State.run_eq_through, hsource]
  | cons c after ih =>
      -- All that this step says is said of the whole input, where nothing shows a leak.
      refine @ih (read ++ [c]) (by simpa using hsource) ?_
      have hsaid := (through_lineEnds setting (read ++ [c]) after).1
      rw [List.append_assoc, List.singleton_append, ← hsource] at hsaid
      rw [State.through_snoc] at hsaid ⊢
      refine (exposed_step (nested_invariant.through setting nested_start _ _) he setting c
        after).resolve_right ?_
      rintro (hproblem | hbetrays)
      · have hprefix : State.problems _ <+: problems setting source := hsaid.filterMap _
        rw [hproblems] at hprefix
        exact hproblem (List.prefix_nil.mp hprefix)
      · split at hbetrays
        · exact hbetrays (inPlace_of_isPrefix (hsaid.filterMap _) hplaced)
        · obtain ⟨more, hmore, e, hmem, hline⟩ := hbetrays
          obtain ⟨more', hmore', hlines⟩ :=
            hsilent read c after hsource (he.waits (hf ‹_›) c)
          rw [hmore] at hmore'
          exact hline (hlines e (List.append_cancel_left hmore' ▸ hmem))

/-- What is exposed at the end of the input is a problem there. -/
theorem not_exposed_of_settled (h : s.settled.stack = []) : ¬ Exposed f rest s.stack := by
  intro he
  have hsettled : s.settled.stack = s.stack.tail ∨ s.settled.stack = s.stack := by
    unfold State.settled
    simp only [State.settle_stack, State.flush_stack]
    split
    · exact Or.inl (s.endDeclaration_stack 0)
    · exact Or.inr rfl
  rw [h] at hsettled
  rcases hsettled with hnil | hnil
  · exact he.ne_nil hnil.symm
  · rw [← hnil] at he
    exact he.ne_nil rfl

/-- A leak leaves something exposed. -/
theorem State.Leaks.exposed {after : List Char} (h : s.Leaks after) (setting : Setting) (c : Char) :
    ∃ f rest, (f.construct ≠ .layoutBody → f.construct.isHeaded = true) ∧
      Exposed f rest (s.readChar setting c after).stack := by
  obtain ⟨d, hd, hconstruct, htop⟩ := h
  obtain ⟨f, rest, hstack, hf⟩ := State.stack_of_top rfl htop
  have hreads : s.top.readsText = true := by
    by_contra hreads
    rw [State.directive?, if_neg hreads] at hd
    cases hd
  have hdeclaration : s.top.isDeclaration = false := by
    by_contra hdeclaration
    exact Construct.not_readsText_of_isDeclaration (by simpa using hdeclaration) hreads
  refine ⟨f, rest, ?_, ?_⟩
  · rw [hf]
    cases hk : s.top <;> simp_all [Construct.readsText, Construct.isHeaded]
  · rcases State.readChar_deeds s setting c after hdeclaration with
      ⟨-, hstrays⟩ | ⟨d', u, hd', hu, hstarts⟩
    · rw [(hstrays d hd).1] at hconstruct
      cases hconstruct
    · obtain rfl := Option.some.inj (hd'.symm.trans hd)
      generalize s.readChar setting c after = t at hstarts
      cases hstarts with
      | enter _ k hk =>
          rw [State.push_stack, hu.stack, hstack]
          refine ⟨[], ⟨k, u.line⟩, rfl, ?_, fun _ =>
            ⟨Construct.isPassive_of_construct? hk, by simp⟩⟩
          cases d' <;> cases hk <;> rfl
      | otherwise _ => cases hconstruct
      | elseIf _ => cases hconstruct

/-- **When content is said nowhere but in a text.** Text and code never stand directly in
a layout call. In a template that is read without a problem, every directive that begins
something with its place in a text is met in one, just when

- directly in a layout call there are slots and ends of lines, and nothing else, and the
  depth of content is one for each condition and loop around it, and three for each slot;
- while the parenthesis behind the keyword of a condition, a loop, a slot or a place for
  one is awaited, nothing is said but ends of lines. -/
theorem events_inPlace_iff (setting : Setting) (source : List Char)
    (h : problems setting source = []) :
    InText (events setting source) ∧
      (InPlace (events setting source) ∧
          Everywhere (fun read c after =>
            let s := State.through setting {} read (c :: after)
            s.waits c = true → Silent s (s.step setting c after)) source ↔
        Everywhere (fun read c after =>
          ¬ ((State.through setting {} read (c :: after)).advance c).Leaks after) source) := by
  refine ⟨events_inText setting source, ?_, fun hleak => ⟨?_, ?_⟩⟩
  · rintro ⟨hplaced, hsilent⟩ read c after hsource hleak
    obtain ⟨f, rest, hf, hexposed⟩ := hleak.exposed setting c
    have hnested := nested_invariant.run setting nested_start source
    have hlast : Exposed f rest (State.run setting {} source).stack := by
      refine exposed_run hf h hplaced hsilent (hsource.trans (List.append_cons read c after)) ?_
      rw [State.through_snoc, State.step_stack]
      exact hexposed
    exact not_exposed_of_settled (stack_settled_of_problems hnested h).1 hlast
  · have hproper : Proper (State.run setting {} source) := by
      rw [State.run_eq_through]
      apply Proper.through
      simpa using hleak
    obtain ⟨hstack, hfinish⟩ := stack_settled_of_problems hproper.nested h
    have hsettled := hproper.settled
    rw [events_eq, hfinish]
    refine inPlace_emit hsettled.inPlace hsettled.header hsettled.nested.opened ?_
    exact placed_of_onText hsettled.nested hsettled.grounded (by simp [OnText, hstack]) _ _
  · rintro read c after rfl s hwaits
    have hproper : Proper s := by
      apply Proper.through
      rintro before d between rfl
      simpa using hleak before d (between ++ c :: after) (by simp)
    exact hproper.step_waiting setting (hleak read c after rfl) hwaits

/-- Text directly in a layout call is dropped. -/
theorem events_inPlace_iff_layout :
    let source := "@layout.l()x@endlayout".toList
    problems {} source = [] ∧ InText (events {} source) ∧ InPlace (events {} source) :=
  have hplaced := events_inPlace_iff {} "@layout.l()x@endlayout".toList (by decide +kernel)
  ⟨by decide +kernel, hplaced.1, (hplaced.2.mpr (by decide +kernel)).1⟩

/-- A call that stands directly in a layout call is said there, without a problem. -/
theorem not_inPlace_of_call_in_layout : ¬ ∀ (setting : Setting) (source : List Char),
    problems setting source = [] → InPlace (events setting source) := by
  intro h
  have hcall := h {} "@layout.main()@tag.card()@endlayout".toList (by decide +kernel)
  revert hcall
  decide +kernel

end Templating.Scan
