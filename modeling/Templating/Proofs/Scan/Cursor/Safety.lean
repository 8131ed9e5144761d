import Templating.Proofs.Scan.Cursor.Markup

/-!
# Reading bytes never goes wrong

Byte by byte the reader keeps up with the scanner. An ASCII character is one byte,
at which both do the same; the bytes of any other character change nothing but the
end of an escape in a string, and neither does the character. So whatever the
template, the reader comes to the end of the input, and it says what the scanner
says.
-/

namespace Templating.Scan

open Templating.Markup
open Text (octets cut? byteSize IsAscii)

/-! ## One ASCII character -/

namespace Cursor

section Ascii

variable {source front after : List Char} {c : Char} {i : Nat} {s : State} {u : Cursor}

theorem Tracks.readComment (h : Tracks s u) (hs : Here source front c after i s)
    (hl : Layered s.stack) (htop : s.top = .comment) :
    Leads Tracks (u.readComment? source i)
      (if ['>', '%', '-', '-'].isPrefixOf s.before then s.pop.settle else s) := by
  obtain ⟨frame, rest, hstack, -⟩ := State.stack_of_top htop (by simp)
  unfold readComment?
  refine Leads.found hs.read ?_
  rw [Text.isSuffixOf_octets (by simp [IsAscii])]
  show Leads Tracks (if ['>', '%', '-', '-'].isPrefixOf s.before then _ else _) _
  split
  · obtain ⟨v, hv, hknows, -, -⟩ := h.toKnows.pop (by simp [hstack]) (by simp [htop])
    rw [hv]
    refine .done ((hknows.settledHere hs.pop).tracks_outer (AllOuter.top ?_))
    rw [State.settle_stack, State.pop_stack]
    exact hl.tail_outer (by rw [htop]; rfl)
  · exact .done h

theorem Level.readText (h : Level s u) (hs : Here source front c after i s)
    (ho : AllOuter s.stack) (hnested : Nested s) (hnoted : Noted front s.elements)
    (hpending : front.head? = some '<' ∨ front.head? = some '/' → 2 ≤ s.pending.length)
    (setting : Setting) :
    Leads Tracks (u.readText? setting source i c) (s.readText setting c after) := by
  unfold readText? State.readText
  refine Leads.found (directive?_eq hs) ?_
  cases hfound : Directive.endingAt? s.before after with
  | some d => exact h.obey hs (narrow_of_directive hfound) ho hnested
  | none =>
      simp only
      rw [h.top]
      -- Both make the same choice from the character, the construct and the interest.
      generalize Interest.active? setting.interest? = interest?
      generalize s.top = top
      by_cases hopen : c = '('
      · subst hopen
        exact .done (h.parenthesisBegins hs ho)
      by_cases hclose : c = ')'
      · subst hclose
        exact h.parenthesisEnds hs ho setting.kind
      cases top with
      | text =>
          cases interest? with
          | none =>
              simp only
              exact h.stay ho
          | some interest =>
              simp only
              exact h.followMarkup hs ho interest hnoted hpending
      | _ =>
          simp only
          exact h.stay ho

theorem Tracks.readChar (h : Tracks s u) (hs : Here source front c after i s)
    (hl : Layered s.stack) (hnested : Nested s) (hnoted : Noted front s.elements)
    (hpending : front.head? = some '<' ∨ front.head? = some '/' → 2 ≤ s.pending.length)
    (setting : Setting) :
    Leads Tracks (u.readByte? setting source i c) (s.readChar setting c after) := by
  have declaration (htop : s.top = .imported ∨ s.top = .param) :
      Leads Tracks (if c = '\n' then u.endDeclaration? source i else some u)
        (if c = '\n' then s.endDeclaration 1 else s) := by
    split
    · have hstop : min (i + 1) (octets source).length = s.position := by
        have hlength := congrArg byteSize hs.source
        rw [Text.byteSize_append, Text.byteSize_reverse, Text.byteSize_cons,
          Text.utf8Size_ascii hs.ascii] at hlength
        rw [Text.length_octets, ← hs.index, hs.place]
        omega
      exact h.endDeclaration hl hs.cut hstop htop
    · exact .done h
  have text (houter : s.top.isOuter = true) :
      Leads Tracks (u.readText? setting source i c) (s.readText setting c after) :=
    (h.level houter).readText hs (hl.all_outer houter) hnested hnoted hpending setting
  unfold readByte? State.readChar
  rw [h.top]
  cases htop : s.top with
  | comment => exact h.readComment hs hl htop
  | string escaping => exact h.readString c htop
  | imported => exact declaration (Or.inl htop)
  | param => exact declaration (Or.inr htop)
  | reference kind =>
      simp only
      split
      · exact h.beginArguments hs htop
      · exact .done h
  | expression escaping => exact h.readCode hs hl
  | statement => exact h.readCode hs hl
  | block => exact h.readCode hs hl
  | parentheses => exact h.readCode hs hl
  | loopHeader => exact h.readCode hs hl
  | arguments call angles => exact h.readCode hs hl
  | _ => exact text (by rw [htop]; rfl)

end Ascii

end Cursor

/-! ## Any other character -/

/-- The state behind a character outside ASCII: the escape in a string is over. -/
def State.calm (s : State) : State :=
  match s.top with
  | .string true => s.become (.string false)
  | _ => s

section Wide

variable {s : State} {c : Char} (hc : ¬ IsAscii c)

include hc

theorem ne_of_wide (a : Char) (ha : IsAscii a) : c ≠ a := by
  rintro rfl
  exact hc ha

theorem readCode_wide (after : List Char) : s.readCode c after = s := by
  have hne := ne_of_wide hc
  unfold State.readCode
  split <;> first | rfl | exact absurd rfl (hne _ (by decide))

theorem readString_wide (escaping : Bool) :
    s.readString c escaping = if escaping then s.become (.string false) else s := by
  have hne := ne_of_wide hc
  unfold State.readString
  split
  · rfl
  · split <;> first | rfl | exact absurd rfl (hne _ (by decide))

theorem followMarkup_wide (interest : Interest) (after : List Char) :
    s.followMarkup interest c after = s := by
  have hne := ne_of_wide hc
  unfold State.followMarkup
  rw [if_neg (hne '<' (by decide))]
  split
  · rfl
  · rw [if_neg (fun h => hne '/' (by decide) h.1)]
    split
    · rfl
    · split <;> first | rfl | exact absurd rfl (hne _ (by decide))

theorem readText_wide {front : List Char} (hbefore : s.before = c :: front) (setting : Setting)
    (after : List Char) : s.readText setting c after = s := by
  have hne := ne_of_wide hc
  unfold State.readText
  rw [hbefore, endingAt?_of_last (Or.inl hc)]
  simp only
  split
  · exact absurd rfl (hne _ (by decide))
  · exact absurd rfl (hne _ (by decide))
  · exact followMarkup_wide hc _ after
  · rfl

/-- A character outside ASCII changes nothing else. -/
theorem readChar_wide {front : List Char} (hbefore : s.before = c :: front) (setting : Setting)
    (after : List Char) : s.readChar setting c after = s.calm := by
  have hne := ne_of_wide hc
  unfold State.readChar State.calm
  cases htop : s.top with
  | comment =>
      rw [hbefore]
      simp [List.isPrefixOf, (hne '>' (by decide)).symm]
  | string escaping =>
      simp only
      rw [readString_wide hc]
      cases escaping <;> rfl
  | imported => exact if_neg (hne '\n' (by decide))
  | param => exact if_neg (hne '\n' (by decide))
  | reference kind => exact if_neg (hne '(' (by decide))
  | expression escaping => exact readCode_wide hc after
  | statement => exact readCode_wide hc after
  | block => exact readCode_wide hc after
  | parentheses => exact readCode_wide hc after
  | loopHeader => exact readCode_wide hc after
  | arguments call angles => exact readCode_wide hc after
  | _ => exact readText_wide hc hbefore setting after

theorem step_wide (s : State) (setting : Setting) (after : List Char) :
    s.step setting c after = (s.advance c).calm := by
  unfold State.step State.endLine
  rw [readChar_wide hc rfl, if_neg (ne_of_wide hc '\n' (by decide))]

end Wide

namespace State

theorem calm_of_escaping {s : State} (h : s.top = .string true) :
    s.calm = s.become (.string false) := by
  unfold calm
  rw [h]

theorem calm_of_not_escaping {s : State} (h : s.top ≠ .string true) : s.calm = s := by
  unfold calm
  split
  · exact absurd ‹_› h
  · rfl

theorem calm_calm (s : State) : s.calm.calm = s.calm := by
  by_cases h : s.top = .string true
  · obtain ⟨frame, rest, hstack, -⟩ := stack_of_top h (by simp)
    rw [calm_of_escaping h]
    exact calm_of_not_escaping (by simp [become, top, hstack])
  · rw [calm_of_not_escaping h, calm_of_not_escaping h]

end State

namespace Cursor

def calm (u : Cursor) : Cursor :=
  { u with state := u.state.calm }

section WideBytes

variable {u : Cursor} {source read rest : List Char} {x : Char} (hx : ¬ IsAscii x)
  (hsource : octets source = read ++ x :: rest)

include hx

theorem readString?_wide (escaping : Bool) : u.readString? x escaping =
    some (if escaping then u.become (.string false) else u) := by
  have hne := ne_of_wide hx
  unfold readString?
  split
  · rfl
  · split <;> first | rfl | exact absurd rfl (hne _ (by decide))

theorem readCode?_wide (i : Nat) : u.readCode? source i x = some u := by
  have hne := ne_of_wide hx
  unfold readCode?
  split <;> first | rfl | exact absurd rfl (hne _ (by decide))

theorem not_suffix {w : List Char} (hw : ∀ c ∈ w, IsAscii c) (hne : w ≠ []) :
    w.isSuffixOf (read ++ [x]) = false := by
  rw [Bool.eq_false_iff, ne_eq, List.isSuffixOf_iff_suffix]
  intro hsuffix
  have hlast := hsuffix.getLast hne
  rw [List.getLast_append_singleton] at hlast
  exact hx (hlast ▸ hw _ (List.getLast_mem hne))

include hsource

omit hx in
theorem firstBytes?_read : Text.firstBytes? (octets source) (read.length + 1) =
    some (read ++ [x]) := by
  unfold Text.firstBytes?
  rw [hsource, if_pos (by simp), List.take_append]
  simp

theorem directive?_wide : directive? source read.length = some none := by
  have hnone : (Directive.all.find? fun d => d.word.toList.isSuffixOf (read ++ [x])) = none := by
    rw [List.find?_eq_none]
    intro d _
    obtain ⟨y, ys, hword, -⟩ := exists_last d
    rw [not_suffix hx (ascii_word d) (by
      intro hnil
      rw [hnil] at hword
      cases hword)]
    simp
  unfold directive?
  rw [firstBytes?_read hsource]
  simp only [Option.bind_eq_bind, Option.bind_some, hnone]

theorem followMarkup?_wide (interest : Interest) :
    u.followMarkup? source read.length interest x = some u := by
  have hne := ne_of_wide hx
  have hle : read.length ≤ (octets source).length := by
    rw [hsource]
    simp
  obtain ⟨x?, hbefore⟩ := Text.byteBefore?_of_le hle
  unfold followMarkup?
  rw [if_neg (hne '<' (by decide))]
  split
  · rfl
  · rw [hbefore]
    simp only [Option.bind_eq_bind, Option.bind_some]
    rw [if_neg (fun h => hne '/' (by decide) h.1)]
    split
    · rfl
    · split <;> first | rfl | exact absurd rfl (hne _ (by decide))

theorem readText?_wide (setting : Setting) :
    u.readText? setting source read.length x = some u := by
  have hne := ne_of_wide hx
  unfold readText?
  rw [directive?_wide hx hsource]
  simp only [Option.bind_eq_bind, Option.bind_some]
  split
  · exact absurd rfl (hne _ (by decide))
  · exact absurd rfl (hne _ (by decide))
  · exact followMarkup?_wide hx hsource _
  · rfl

theorem readComment?_wide : u.readComment? source read.length = some u := by
  unfold readComment?
  rw [firstBytes?_read hsource]
  simp only [Option.bind_eq_bind, Option.bind_some]
  rw [not_suffix hx (by simp [IsAscii]) (by simp)]
  rfl

theorem readByte?_wide (setting : Setting) :
    u.readByte? setting source read.length x = some u.calm := by
  have hne := ne_of_wide hx
  unfold readByte? calm State.calm Cursor.top
  cases htop : u.state.top with
  | comment => exact readComment?_wide hx hsource
  | string escaping =>
      simp only
      rw [readString?_wide hx]
      cases escaping <;> rfl
  | imported => exact if_neg (hne '\n' (by decide))
  | param => exact if_neg (hne '\n' (by decide))
  | reference kind => exact if_neg (hne '(' (by decide))
  | expression escaping => exact readCode?_wide hx _
  | statement => exact readCode?_wide hx _
  | block => exact readCode?_wide hx _
  | parentheses => exact readCode?_wide hx _
  | loopHeader => exact readCode?_wide hx _
  | arguments call angles => exact readCode?_wide hx _
  | _ => exact readText?_wide hx hsource setting

/-- **A byte outside ASCII changes nothing else** for the reader. -/
theorem step?_wide (setting : Setting) :
    u.step? setting source read.length x = some u.calm := by
  unfold step?
  rw [readByte?_wide hx hsource]
  simp only [Option.bind_eq_bind, Option.bind_some, State.endLine]
  rw [if_neg (ne_of_wide hx '\n' (by decide))]

/-- All bytes of a character together do what its first byte does. -/
theorem run?_wide (u : Cursor) (setting : Setting) {xs ys : List Char} (hxs : ∀ x ∈ xs, ¬ IsAscii x)
    (hrest : rest = xs ++ ys) (zs : List Char) :
    run? setting source u read.length (x :: (xs ++ zs)) =
      run? setting source u.calm (read.length + (xs.length + 1)) zs := by
  rw [run?, step?_wide hx hsource]
  simp only [Option.bind_eq_bind, Option.bind_some]
  induction xs generalizing u read x rest with
  | nil => rfl
  | cons y xs ih =>
      have hy : ¬ IsAscii y := hxs y (by simp)
      have hread : octets source = (read ++ [x]) ++ y :: (xs ++ ys) := by
        rw [hsource, hrest]
        simp
      have hlength : (read ++ [x]).length = read.length + 1 := by simp
      have hcalm : u.calm.calm = u.calm := by
        unfold calm
        rw [State.calm_calm]
      rw [List.cons_append, run?, ← hlength, step?_wide hy hread]
      simp only [Option.bind_eq_bind, Option.bind_some]
      rw [ih hy hread u.calm (fun z hz => hxs z (by simp [hz])) rfl, hcalm, hlength,
        List.length_cons]
      congr 1
      omega

end WideBytes

/-! ## The whole source -/

section Run

variable {source after : List Char} {c : Char} {s : State} {u : Cursor}

/-- The reader has come as far as the scanner, and keeps up with it. -/
structure Follows (s : State) (u : Cursor) : Prop where
  tracks : Tracks s u
  laid : Laid s
  nested : Nested s
  noted : Noted s.before s.elements
  marks : s.before.head? = some '<' ∨ s.before.head? = some '/' → s.pending ≠ []

theorem Follows.start : Follows {} {} where
  tracks := ⟨⟨rfl, rfl⟩, rfl⟩
  laid := .start
  nested := nested_start
  noted := fun _ h => absurd h (by simp)
  marks := fun h => by simp at h

theorem Tracks.advance (h : Tracks s u) (c : Char) : Tracks (s.advance c) u := by
  refine ⟨⟨h.state, h.starts⟩, ?_⟩
  rw [h.mark]
  show _ = s.position + c.utf8Size - (c.utf8Size + byteSize s.pending)
  omega

theorem Tracks.calm (h : Tracks s u) : Tracks s.calm u.calm := by
  have htop : u.state.top = s.top := h.top
  unfold Cursor.calm
  by_cases hescaping : s.top = .string true
  · obtain ⟨frame, rest, hstack, -⟩ := State.stack_of_top hescaping (by simp)
    rw [State.calm_of_escaping hescaping, State.calm_of_escaping (htop.trans hescaping)]
    exact h.become (by simp [hstack]) (by rw [hescaping]; rfl) (by rw [hescaping]; rfl)
  · rw [State.calm_of_not_escaping hescaping, State.calm_of_not_escaping (by rwa [htop])]
    exact h

theorem Tracks.endLine (h : Tracks s u) (c : Char) :
    Tracks (s.endLine c) { u with state := u.state.endLine c } := by
  have hstack (s : State) : (s.endLine c).stack = s.stack := by
    unfold State.endLine
    split
    · exact s.emit_stack .lineEnd
    · rfl
  have hpending : (s.endLine c).position = s.position ∧ (s.endLine c).pending = s.pending := by
    unfold State.endLine
    split
    · exact ⟨s.emit_position .lineEnd, s.emit_pending .lineEnd⟩
    · exact ⟨rfl, rfl⟩
  refine ⟨⟨?_, ?_⟩, ?_⟩
  · rw [State.textless_endLine, h.state]
  · rw [hstack]
    exact h.starts
  · rw [hpending.1, hpending.2, ← h.mark]
    show markOf u.last (u.state.endLine c).stack u.starts = _
    rw [hstack]
    rfl

/-- An ASCII character is one byte. -/
theorem Follows.step_ascii (h : Follows s u) (hsource : source = s.before.reverse ++ c :: after)
    (hc : IsAscii c) (setting : Setting) : ∃ v, Tracks (s.step setting c after) v ∧
      ∀ zs, run? setting source u s.position (octets [c] ++ zs) =
        run? setting source v (s.position + c.utf8Size) zs := by
  have hs : Here source s.before c after s.position (s.advance c) :=
    ⟨hsource, h.laid.position, hc, rfl, by
      show s.position + c.utf8Size = c.utf8Size + byteSize s.before
      rw [h.laid.position, Nat.add_comm], List.prefix_cons_inj c |>.mpr h.laid.pending,
      List.cons_ne_nil _ _⟩
  -- The mark of a tag is pending, so two characters are pending behind it.
  have hpending (hmark : s.before.head? = some '<' ∨ s.before.head? = some '/') :
      2 ≤ (s.advance c).pending.length := by
    have := List.length_pos_iff.mpr (h.marks hmark)
    show 2 ≤ s.pending.length + 1
    omega
  obtain ⟨v, hread, hv⟩ := (h.tracks.advance c).readChar hs h.laid.layered
    (nested_invariant.advance s c h.nested) h.noted hpending setting
  refine ⟨_, hv.endLine c, fun zs => ?_⟩
  rw [Text.octets_ascii hc, List.singleton_append, run?, step?, hread, Text.utf8Size_ascii hc]
  rfl

/-- Any other character is several bytes, which together do what it does. -/
theorem Follows.step_wide (h : Follows s u) (hsource : source = s.before.reverse ++ c :: after)
    (hc : ¬ IsAscii c) (setting : Setting) : ∃ v, Tracks (s.step setting c after) v ∧
      ∀ zs, run? setting source u s.position (octets [c] ++ zs) =
        run? setting source v (s.position + c.utf8Size) zs := by
  obtain ⟨x, xs, hxs, -⟩ := Text.octets_first c
  have hwide := Text.octets_wide hc
  rw [hxs] at hwide
  have hbytes : octets source = octets s.before.reverse ++ x :: (xs ++ octets after) := by
    rw [hsource, Text.octets_append, Text.octets_cons c after, hxs]
    rfl
  have hplace : (octets s.before.reverse).length = s.position := by
    rw [Text.length_octets, Text.byteSize_reverse, h.laid.position]
  have hsize : xs.length + 1 = c.utf8Size := by
    have hlength := congrArg List.length hxs
    rw [Text.length_octets] at hlength
    exact hlength.symm
  rw [Scan.step_wide hc]
  refine ⟨_, (h.tracks.advance c).calm, fun zs => ?_⟩
  have hrun := run?_wide (hwide x (by simp)) hbytes u setting
    (fun y hy => hwide y (by simp [hy])) rfl zs
  rw [hplace, hsize] at hrun
  rw [hxs]
  exact hrun

/-- **One character, and all its bytes.** -/
theorem Follows.step (h : Follows s u) (hsource : source = s.before.reverse ++ c :: after)
    (setting : Setting) : ∃ v, Follows (s.step setting c after) v ∧
      ∀ zs, run? setting source u s.position (octets [c] ++ zs) =
        run? setting source v (s.step setting c after).position zs := by
  have hlaid : Laid (s.step setting c after) := laid_upheld.step setting c after h.laid
  have hbefore : (s.step setting c after).before = c :: s.before :=
    State.step_before h.laid.layered setting c after
  have hposition : (s.step setting c after).position = s.position + c.utf8Size := by
    rw [hlaid.position, hbefore, Text.byteSize_cons, h.laid.position, Nat.add_comm]
  have hreader : ∃ v, Tracks (s.step setting c after) v ∧
      ∀ zs, run? setting source u s.position (octets [c] ++ zs) =
        run? setting source v (s.position + c.utf8Size) zs := by
    by_cases hc : IsAscii c
    · exact h.step_ascii hsource hc setting
    · exact h.step_wide hsource hc setting
  obtain ⟨v, hv, hrun⟩ := hreader
  refine ⟨v, ⟨hv, hlaid, nested_invariant.step setting c after h.nested,
    h.noted.step h.laid.position h.laid.layered setting c after, ?_⟩, ?_⟩
  · rw [hbefore]
    intro hmark
    exact pending_step (by simpa using hmark) s setting after
  · rw [hposition]
    exact hrun

/-- All characters that are left. -/
theorem Follows.run (h : Follows s u) (setting : Setting) {cs : List Char}
    (hsource : source = s.before.reverse ++ cs) : ∃ v, Follows (State.run setting s cs) v ∧
      run? setting source u s.position (octets cs) = some v := by
  induction cs generalizing s u with
  | nil => exact ⟨u, h, rfl⟩
  | cons c cs ih =>
      obtain ⟨v, hv, hstep⟩ := h.step hsource setting
      have hrest : source = (s.step setting c cs).before.reverse ++ cs := by
        rw [State.step_before h.laid.layered, hsource]
        simp
      obtain ⟨w, hw, hrun⟩ := ih hv hrest
      refine ⟨w, hw, ?_⟩
      rw [Text.octets_cons, hstep]
      exact hrun

end Run

/-! ## The end of the input -/

section Finish

variable {source : List Char} {s : State} {u : Cursor}

theorem Follows.closeDeclaration (h : Follows s u) (hbefore : s.before = source.reverse) :
    Leads Tracks (u.closeDeclaration? source)
      (if s.top = .imported ∨ s.top = .param then s.endDeclaration 0 else s) := by
  have hlength := h.laid.length_octets hbefore
  unfold closeDeclaration?
  rw [h.tracks.top]
  split
  · rename_i htop
    have hcut : cut? source (s.position - byteSize s.pending) (octets source).length =
        some (s.slice 0) := by
      rw [hlength]
      exact (h.laid.within hbefore).cut (Nat.zero_le _)
    have hstop : min ((octets source).length + 1) (octets source).length = s.position := by
      rw [← hlength]
      omega
    exact h.tracks.endDeclaration h.laid.layered hcut hstop htop
  · exact .done h.tracks

theorem Follows.finish (h : Follows s u) (hbefore : s.before = source.reverse) :
    Leads Knows (u.finish? source) s.finish := by
  have hlength := h.laid.length_octets hbefore
  unfold finish?
  refine (h.closeDeclaration hbefore).bind fun v hv => ?_
  rw [State.finish_reviewed, State.reviewed]
  unfold State.settled
  generalize hdeclared : (if s.top = .imported ∨ s.top = .param then s.endDeclaration 0 else s) =
    t at hv ⊢
  have hturns : Turns s t := hdeclared ▸ State.turns_declared s h.laid.layered
  obtain ⟨hread, hposition, -⟩ := hturns.reading
  have hlaid : Laid t := laid_upheld.turns hturns h.laid
  have hflushed : Leads Knows (v.flush? source (octets source).length) (t.flush 0) := by
    by_cases htext : t.top = .text
    · have hwithin : Within source t := hlaid.within (hread.trans hbefore)
      rw [hlength, ← hposition]
      exact ((hv.level (by rw [htext]; rfl)).flush (n := 0) hwithin ⟨Nat.zero_le _, by simp⟩).mono
        fun w hw => hw.toKnows
    · unfold flush? State.flush
      rw [hv.top, if_neg (fun hboth => htext hboth.1), if_neg (fun hboth => htext hboth.1)]
      exact .done hv.toKnows
  refine hflushed.bind fun w hw => .done ?_
  have hsettled : Knows (t.flush 0).settle (w.settle (octets source).length) := hw.settle 0 _
  have hunfinished : (w.settle (octets source).length).state.unfinished? =
      (t.flush 0).settle.unfinished? := by
    rw [hsettled.state]
    rfl
  simp only
  rw [hunfinished]
  cases (t.flush 0).settle.unfinished? with
  | none => exact hsettled.say .complete
  | some problem => exact (hsettled.signal (.problem problem)).say .complete

end Finish

/-- **Reading a template by bytes never goes wrong.** Whatever the source, the kind and
the interest are, every slice is cut between characters of the source, every byte that
is looked at is there, no construct ends that has not begun, and neither the depth nor
the counters of brackets fall below zero; and what is said is what the scanner
says. -/
theorem signals?_eq (setting : Setting) (source : List Char) :
    signals? setting source = some (signals setting source) := by
  obtain ⟨u, hu, hrun⟩ := Follows.start.run setting (show source = [].reverse ++ source from rfl)
  obtain ⟨v, hfinish, hv⟩ := hu.finish (State.run_before setting source)
  unfold signals? signals
  rw [show run? setting source {} 0 (octets source) = some u from hrun]
  simp only [Option.bind_eq_bind, Option.bind_some]
  rw [hfinish, Option.bind_some, hv.state]
  rfl

example : signals? { kind := .layout } "<%é--%>@layout.l(é, x<y)@define(é".toList =
    some (signals { kind := .layout } "<%é--%>@layout.l(é, x<y)@define(é".toList) := by
  decide +kernel

end Cursor

end Templating.Scan
