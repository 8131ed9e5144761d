import Templating.Proofs.Scan.Cursor.Notes
import Templating.Proofs.Scan.Cursor.Structure

/-!
# Markup by byte offsets

Where the markup is followed the reader of bytes goes back behind the character it
has just read: the text before `</` is handed out at the `/`, and the text before
`/>` at the `>`. This is possible since the `<` and the `/` are still pending. The
value of an attribute is cut from where its opening quote was met, which has been
noted in the element.
-/

namespace Templating.Scan

open Templating.Markup
open Text (Slice octets cut? minus? byteSize IsAscii)

section Place

variable {source front after : List Char} {c : Char} {i : Nat} {s : State}

/-- The last two characters are ASCII characters when the one before is one of the
marks of a tag. -/
theorem Here.narrow_two (hs : Here source front c after i s) {a : Char} (ha : IsAscii a)
    (hfront : front.head? = some a) : Narrow 2 s := by
  cases front with
  | nil => cases hfront
  | cons b front =>
      obtain rfl : b = a := by simpa using hfront
      refine ⟨by rw [hs.before]; simp, ?_⟩
      rw [hs.before]
      simpa using ⟨hs.ascii, ha⟩

theorem Here.back_one (hs : Here source front c after i s) (hn : Narrow 2 s) :
    minus? i 1 = some (s.position - 2) := by
  have hindex := hs.index
  have hsize := hn.byteSize
  have := State.byteSize_take_le s.before 2
  have := hs.position
  rw [Text.minus?_of_le (by omega)]
  congr 1
  omega

end Place

namespace Cursor

variable {source front after : List Char} {c : Char} {i n : Nat} {s : State} {u : Cursor}

/-! ## Elements -/

section Elements

theorem Level.keep (h : Level s u) (hs : Within source s) (hn : Narrow n s)
    (hlength : n ≤ s.pending.length) : Level (s.keep n) (u.settle (s.position - n)) := by
  refine ⟨h.toKnows.settle n _, ?_⟩
  show s.position - n = s.position - byteSize (s.pending.take n)
  rw [hs.take_pending hlength, hn.byteSize]

theorem Level.markup (h : Level s u) (elements : List Element) (closingTag : Bool) :
    Level { s with elements, closingTag } (u.setMarkup elements closingTag) :=
  ⟨⟨by show { u.state with elements, closingTag } = _; rw [h.state]; rfl, h.starts⟩, h.last⟩

theorem Knows.elements (h : Knows s u) : u.state.elements = s.elements := by
  rw [h.state]
  rfl

theorem Knows.closingTag (h : Knows s u) : u.state.closingTag = s.closingTag := by
  rw [h.state]
  rfl

theorem Level.dropElement (h : Level s u) :
    Level { s with elements := s.elements.tail } u.dropElement := by
  unfold Cursor.dropElement
  rw [h.elements, h.closingTag]
  exact h.markup s.elements.tail s.closingTag

theorem Level.setElement (h : Level s u) (e : Element) : Level (s.setElement e) (u.setElement e) :=
  ⟨⟨by show u.state.setElement e = _; rw [h.state]; rfl, h.starts⟩, h.last⟩

/-- A tag is written in bytes where it is written in characters. -/
theorem opensTag_octets (name : String) : opensTag (octets after) name = State.opensHere after name := by
  unfold opensTag State.opensHere
  rw [Text.isPrefixOf_octets]
  cases hopens : name.toList.isPrefixOf after with
  | false => rfl
  | true =>
      obtain ⟨rest, hrest⟩ := List.isPrefixOf_iff_prefix.mp hopens
      rw [Bool.true_and, Bool.true_and, ← hrest, Text.length_octets, Text.getElem?_octets,
        Text.rel_twin_any Text.asciiSort_isAsciiBlank (Text.twin_head rest), List.drop_left]
      cases rest <;> rfl

theorem Level.beginElement (h : Level s u) (hs : Here source front c after i s)
    (ho : AllOuter s.stack) (interest : Interest) :
    Leads Tracks (u.beginElement? source i interest) (s.beginElement interest after) := by
  have hopens : opensTag (octets after) = State.opensHere after := funext opensTag_octets
  unfold beginElement? State.beginElement
  refine Leads.found hs.rest ?_
  rw [hopens, h.elements]
  cases interest.tags.find? (State.opensHere after) with
  | none => exact .done (h.tracks_outer ho.top)
  | some name => exact .done ((h.markup _ _).tracks_outer ho.top)

/-- Text is handed out up to a place that is not yet behind what is pending. -/
theorem Level.handOut (h : Level s u) (hs : Within source s) (hn : Narrow n s)
    (hlength : n ≤ s.pending.length) :
    Leads Level (u.handOut? source (s.position - n)) ((s.flush n).keep n) := by
  have hwithin : Within source (s.flush n) :=
    ⟨by simpa using hs.pending, by simpa using hs.position, by simpa using hs.source⟩
  have hnarrow : Narrow n (s.flush n) := ⟨by simpa using hn.length, by simpa using hn.ascii⟩
  unfold handOut?
  refine (h.flush hs hn).bind fun v hv => .done ?_
  have hkept := hv.keep hwithin hnarrow (by simpa using hlength)
  rwa [State.flush_position] at hkept

theorem Level.endElement (h : Level s u) (hs : Here source front c after i s)
    (ho : AllOuter s.stack) (hn : Narrow 2 s) (hlength : 2 ≤ s.pending.length) (e : Element) :
    Leads Tracks (u.endElement? source i e) (s.endElement e after) := by
  unfold endElement? State.endElement
  refine Leads.found hs.rest ?_
  rw [Text.isPrefixOf_octets]
  split
  · have hclosing : Level { s with closingTag := true } (u.setMarkup u.state.elements true) := by
      rw [h.elements]
      exact h.markup s.elements true
    split
    · exact .done (hclosing.tracks_outer ho.top)
    · refine Leads.found (hs.back_one hn) ?_
      refine (hclosing.handOut ⟨hs.pending, hs.position, hs.within.source⟩ ⟨hn.length, hn.ascii⟩
        hlength).bind fun v hv => .done ?_
      have hdropped := (hv.say (.elementClosed e)).dropElement
      simp only [State.emit_elements, State.keep_elements, State.flush_elements] at hdropped
      exact hdropped.tracks_outer (AllOuter.top (by simpa using ho))
  · exact .done (h.tracks_outer ho.top)

theorem Level.completeOpening (h : Level s u) (hs : Within source s)
    (ho : AllOuter s.stack) (hn : Narrow n s) (hlength : n ≤ s.pending.length) (e : Element)
    (selfClosing : Bool) :
    Leads Tracks (u.completeOpening? source e (s.position - n) selfClosing)
      (s.completeOpening e n selfClosing) := by
  unfold completeOpening? State.completeOpening
  refine (h.handOut hs hn hlength).bind fun v hv => .done ?_
  have hsaid := (hv.setElement { e with opened := true }).say
    (.elementOpened { e with opened := true })
  have helements : (((s.flush n).keep n).setElement { e with opened := true }).stack = s.stack :=
    s.flush_stack n
  simp only
  split
  · exact hsaid.dropElement.tracks_outer (AllOuter.top (by simpa [helements] using ho))
  · exact hsaid.tracks_outer (AllOuter.top (by simpa [helements] using ho))

end Elements

/-! ## Attributes -/

section Attributes

theorem Level.stay (h : Level s u) (ho : AllOuter s.stack) : Leads Tracks (some u) s :=
  .done (h.tracks_outer ho.top)

theorem Level.stayElement (h : Level s u) (ho : AllOuter s.stack) (e : Element) :
    Leads Tracks (some (u.setElement e)) (s.setElement e) :=
  (h.setElement e).stay ho

/-- **The name of an attribute** lies between the offsets that going back finds. -/
theorem Level.beginAttribute (h : Level s u) (hs : Here source front c after i s)
    (ho : AllOuter s.stack) (e : Element) :
    Leads Tracks (u.beginAttribute? source i e) (s.beginAttribute e) := by
  have hsort : Text.AsciiSort fun c => !Text.isAsciiBlank c && c != '<' :=
    Text.asciiSort_isAsciiBlank.not.and (Text.asciiSort_beq (by decide)).not
  have hstop := Text.backOver?_octets Text.asciiSort_isAsciiBlank front (c :: after)
  rw [← hs.source, ← hs.place] at hstop
  have hfront := List.takeWhile_append_dropWhile (p := Text.isAsciiBlank) (l := front)
  have hname : State.nameBackwards s.before.tail =
      ((front.dropWhile Text.isAsciiBlank).takeWhile
        fun c => !Text.isAsciiBlank c && c != '<').reverse := by
    rw [hs.before]
    rfl
  generalize front.takeWhile Text.isAsciiBlank = blanks at hfront
  generalize front.dropWhile Text.isAsciiBlank = behind at hfront hstop hname
  have hsource : source = behind.reverse ++ (blanks.reverse ++ c :: after) := by
    rw [hs.source, ← hfront]
    simp
  have hstart := Text.backOver?_octets hsort behind (blanks.reverse ++ c :: after)
  rw [← hsource] at hstart
  have hbehind := List.takeWhile_append_dropWhile
    (p := fun c => !Text.isAsciiBlank c && c != '<') (l := behind)
  generalize (behind.takeWhile fun c => !Text.isAsciiBlank c && c != '<') = name
    at hbehind hname
  generalize (behind.dropWhile fun c => !Text.isAsciiBlank c && c != '<') = rest
    at hbehind hstart
  have hcut := Text.cut?_append rest.reverse name.reverse (blanks.reverse ++ c :: after)
  rw [← List.reverse_append, hbehind, ← hsource, Text.byteSize_reverse,
    Text.byteSize_reverse] at hcut
  unfold beginAttribute? State.beginAttribute
  refine Leads.found hstop (Leads.found hstart ?_)
  rw [hname]
  cases name with
  | nil =>
      rw [List.nil_append] at hbehind
      rw [hbehind, if_pos rfl]
      exact h.stay ho
  | cons x name =>
      have hsize := congrArg byteSize hbehind
      have := x.utf8Size_pos
      rw [Text.byteSize_append, Text.byteSize_cons] at hsize
      rw [if_neg (by omega)]
      refine Leads.found hcut ?_
      cases hreverse : (x :: name).reverse with
      | nil => simp at hreverse
      | cons y ys => exact h.stayElement ho _

theorem lastBytes_append (xs ys : List Char) : State.lastBytes (byteSize xs) (xs ++ ys) = xs := by
  induction xs with
  | nil => cases ys <;> rfl
  | cons x xs ih =>
      have := x.utf8Size_pos
      rw [Text.byteSize_cons, List.cons_append, State.lastBytes, if_neg (by omega),
        Nat.add_sub_cancel_left, ih]

/-- The value of an attribute can be cut from where it has begun. -/
theorem cut?_value (hs : Here source front c after i s) {start : Nat}
    (hnoted : ∃ since behind, front = since ++ behind ∧ start = byteSize behind) :
    ∃ x, cut? source start i = some x ∧ x.text = s.textSince start := by
  obtain ⟨since, behind, hfront, hstart⟩ := hnoted
  have hcut := Text.cut?_append behind.reverse since.reverse (c :: after)
  rw [← List.reverse_append, ← hfront, ← hs.source, Text.byteSize_reverse, Text.byteSize_reverse,
    ← hstart, ← hs.place] at hcut
  refine ⟨_, hcut, ?_⟩
  have hindex := hs.index
  have hbytes : s.position - c.utf8Size - start = byteSize since := by
    have hplace := hs.place
    rw [hfront, Text.byteSize_append] at hplace
    rw [Text.utf8Size_ascii hs.ascii]
    omega
  unfold State.textSince
  rw [hs.before]
  simp only
  rw [hbytes, hfront, lastBytes_append]

theorem Level.quote (h : Level s u) (hs : Here source front c after i s) (ho : AllOuter s.stack)
    (interest : Interest) {e : Element} (he : e ∈ s.elements) (hnoted : Noted front s.elements) :
    Leads Tracks (u.quote? source i interest e) (s.quote interest e) := by
  unfold quote? State.quote
  cases hcurrent : e.current? with
  | none => exact h.stay ho
  | some a =>
      simp only
      cases hvalue : a.value with
      | awaited =>
          simp only
          rw [hs.index]
          split
          · have hstart := hs.within
            refine ((h.setElement _).handOut (n := 0) ⟨hstart.pending, hstart.position,
              hstart.source⟩ ⟨Nat.zero_le _, by simp⟩ (Nat.zero_le _)).bind fun v hv => ?_
            exact (hv.say _).stay (by simpa [State.setElement] using ho)
          · exact h.stayElement ho _
      | begun =>
          obtain ⟨x, hcut, htext⟩ := cut?_value hs
            (hnoted e he a (List.mem_of_getLast? hcurrent) hvalue)
          refine Leads.found hcut ?_
          rw [htext]
          exact h.stayElement ho _
      | whole text => exact h.stay ho

theorem Level.endTag (h : Level s u) (hs : Here source front c after i s) (ho : AllOuter s.stack)
    (hpending : front.head? = some '/' → 2 ≤ s.pending.length) (e : Element) {x? : Option Char}
    (hx : x? = some '/' ↔ front.head? = some '/') :
    Leads Tracks (u.endTag? source i e x?) (s.endTag e) := by
  unfold endTag? State.endTag
  rw [hs.previous, h.closingTag, if_congr hx rfl rfl]
  split
  · rename_i hslash
    have hn := hs.narrow_two (by decide) hslash
    exact Leads.found (hs.back_one hn)
      (h.completeOpening hs.within ho hn (hpending hslash) e true)
  · split
    · rw [h.elements]
      exact (h.markup s.elements false).stay ho
    · have hplace : i = s.position - 1 := by
        have := hs.index
        omega
      rw [hplace]
      exact h.completeOpening hs.within ho hs.narrow hs.one_le e false

end Attributes

/-! ## One character of markup -/

theorem Level.followMarkup (h : Level s u) (hs : Here source front c after i s)
    (ho : AllOuter s.stack) (interest : Interest) (hnoted : Noted front s.elements)
    (hpending : front.head? = some '<' ∨ front.head? = some '/' → 2 ≤ s.pending.length) :
    Leads Tracks (u.followMarkup? source i interest c) (s.followMarkup interest c after) := by
  obtain ⟨x?, hbefore, hx⟩ := hs.byteBefore
  have hopening := Text.rel_twin_iff hx (show IsAscii '<' by decide)
  have hslash := Text.rel_twin_iff hx (show IsAscii '/' by decide)
  unfold followMarkup? State.followMarkup
  split
  · exact h.beginElement hs ho interest
  · rw [h.elements]
    cases helements : s.elements with
    | nil => exact h.stay ho
    | cons e es =>
        have he : e ∈ s.elements := by simp [helements]
        simp only
        refine Leads.found hbefore ?_
        rw [hs.previous, if_congr (and_congr_right fun _ => hopening) rfl rfl]
        split
        · rename_i hclosing
          exact h.endElement hs ho (hs.narrow_two (by decide) hclosing.2)
            (hpending (Or.inl hclosing.2)) e
        · split
          · exact h.stay ho
          · by_cases hequals : c = '='
            · subst hequals
              simp only
              split
              · exact h.stay ho
              · exact h.beginAttribute hs ho e
            by_cases hquote : c = '"'
            · subst hquote
              exact h.quote hs ho interest he hnoted
            by_cases hends : c = '>'
            · subst hends
              simp only
              split
              · exact h.stay ho
              · exact h.endTag hs ho (fun hfront => hpending (Or.inr hfront)) e hslash
            simp only
            exact h.stay ho

end Cursor

end Templating.Scan
