import Templating.Literal.Split
import Templating.Proofs.Text.Encoding

/-!
# Pieces of literals

A long text is cut into pieces that are as long as the limit allows: the next
character would make any of them too long. There is only one way to cut a text like
that. Looking at its bytes, a piece ends where going back from the limit first meets
the beginning of a character; if that is the beginning of the text, its first
character is wider than the limit and becomes a piece of its own.
-/

namespace Templating.Literal

open Text (byteSize first? isBoundary skip? toBytes)

/-! ## Pieces that are as long as can be -/

/-- A piece within the limit, unless it is a single character that is wider. -/
def Fits (limit : Nat) (piece : List Char) : Prop :=
  byteSize piece ≤ limit ∨ ∃ c, piece = [c] ∧ limit < c.utf8Size

theorem fits_single (limit : Nat) (c : Char) : Fits limit [c] := by
  by_cases hwide : c.utf8Size ≤ limit
  · exact .inl hwide
  · exact .inr ⟨c, rfl, Nat.lt_of_not_le hwide⟩

/-- The pieces make up the text. None is empty, each fits, and the character behind
any of them would make it too long. -/
structure Packed (limit : Nat) (text : List Char) (pieces : List (List Char)) : Prop where
  flatten : pieces.flatten = text
  nonempty : ∀ piece ∈ pieces, piece ≠ []
  fits : ∀ piece ∈ pieces, Fits limit piece
  maximal : ∀ front piece c rest back, pieces = front ++ piece :: (c :: rest) :: back →
    limit < byteSize piece + c.utf8Size

namespace Packed

variable {limit : Nat} {piece text : List Char} {pieces others : List (List Char)}

theorem nil (limit : Nat) : Packed limit [] [] where
  flatten := rfl
  nonempty piece h := by cases h
  fits piece h := by cases h
  maximal front piece c rest back h := by simp at h

/-- A piece before others, if it cannot take their first character. -/
theorem cons (hpiece : piece ≠ []) (hfits : Fits limit piece)
    (hnext : ∀ c rest, text = c :: rest → limit < byteSize piece + c.utf8Size)
    (h : Packed limit text pieces) : Packed limit (piece ++ text) (piece :: pieces) where
  flatten := by rw [List.flatten_cons, h.flatten]
  nonempty p hp := by
    rcases List.mem_cons.mp hp with rfl | hp
    · exact hpiece
    · exact h.nonempty p hp
  fits p hp := by
    rcases List.mem_cons.mp hp with rfl | hp
    · exact hfits
    · exact h.fits p hp
  maximal front p c rest back hpieces := by
    cases front with
    | nil =>
        obtain ⟨rfl, hback⟩ := List.cons.inj hpieces
        apply hnext c (rest ++ back.flatten)
        rw [← h.flatten, hback]
        rfl
    | cons first front =>
        obtain ⟨-, hpieces⟩ := List.cons.inj hpieces
        exact h.maximal front p c rest back hpieces

theorem single (hpiece : piece ≠ []) (hfits : Fits limit piece) : Packed limit piece [piece] := by
  have h := (nil limit).cons hpiece hfits (by simp)
  rwa [List.append_nil] at h

theorem tail (h : Packed limit text (piece :: pieces)) : Packed limit pieces.flatten pieces where
  flatten := rfl
  nonempty p hp := h.nonempty p (List.mem_cons_of_mem _ hp)
  fits p hp := h.fits p (List.mem_cons_of_mem _ hp)
  maximal front p c rest back hpieces := by
    apply h.maximal (piece :: front) p c rest back
    rw [hpieces]
    rfl

/-- A piece that fits is not longer than the first one. -/
theorem prefix_first (h : Packed limit text (piece :: pieces)) {other : List Char}
    (hfits : Fits limit other) (hother : other <+: text) : other <+: piece := by
  have htext : piece <+: text := ⟨pieces.flatten, h.flatten⟩
  rcases List.prefix_or_prefix_of_prefix hother htext with hle | ⟨more, rfl⟩
  · exact hle
  · cases more with
    | nil => rw [List.append_nil]
    | cons c more =>
        -- Then it would take the next character, which is too much for it.
        obtain ⟨rest, hrest⟩ := hother
        have hpieces : pieces.flatten = c :: (more ++ rest) := by
          have hflatten := h.flatten
          rw [List.flatten_cons, ← hrest, List.append_assoc] at hflatten
          exact List.append_cancel_left hflatten
        obtain ⟨q, back, hback⟩ := List.exists_cons_of_ne_nil
          (show pieces ≠ [] by rintro rfl; cases hpieces)
        subst hback
        have hq := h.nonempty q (by simp)
        obtain ⟨d, q, rfl⟩ := List.exists_cons_of_ne_nil hq
        obtain rfl : d = c := (List.cons.inj hpieces).1
        have hlong := h.maximal [] piece d q back rfl
        rcases hfits with hle | ⟨single, hsingle, -⟩
        · rw [Text.byteSize_append, Text.byteSize_cons] at hle
          omega
        · have hlength := congrArg List.length hsingle
          have hpos := List.length_pos_of_ne_nil (h.nonempty piece (by simp))
          simp only [List.length_append, List.length_cons, List.length_nil] at hlength
          omega

/-- **A text is packed in only one way.** -/
theorem unique (h : Packed limit text pieces) (h' : Packed limit text others) :
    pieces = others := by
  induction pieces generalizing text others with
  | nil =>
      cases others with
      | nil => rfl
      | cons other others =>
          have hempty : other ++ others.flatten = [] := h'.flatten.trans h.flatten.symm
          exact absurd (List.append_eq_nil_iff.mp hempty).1 (h'.nonempty other (by simp))
  | cons piece pieces ih =>
      cases others with
      | nil =>
          have hempty : piece ++ pieces.flatten = [] := h.flatten.trans h'.flatten.symm
          exact absurd (List.append_eq_nil_iff.mp hempty).1 (h.nonempty piece (by simp))
      | cons other others =>
          have hle := h'.prefix_first (h.fits piece (by simp)) ⟨pieces.flatten, h.flatten⟩
          have hge := h.prefix_first (h'.fits other (by simp)) ⟨others.flatten, h'.flatten⟩
          obtain rfl : piece = other := hle.eq_of_length_le hge.length_le
          have hrest : others.flatten = pieces.flatten := by
            have hsame := h'.flatten.trans h.flatten.symm
            exact List.append_cancel_left hsame
          have htail := h'.tail
          rw [hrest] at htail
          rw [ih h.tail htail]

end Packed

/-- What is packed behind a piece that has been begun. -/
theorem packed_splitAfter {limit : Nat} (piece : List Char)
    (hfits : piece ≠ [] → Fits limit piece.reverse) (cs : List Char) :
    Packed limit (piece.reverse ++ cs) (splitAfter limit piece (byteSize piece) cs) := by
  induction cs generalizing piece with
  | nil =>
      rw [splitAfter, List.append_nil]
      by_cases hpiece : piece = []
      · rw [if_pos hpiece, hpiece]
        exact .nil limit
      · rw [if_neg hpiece]
        exact .single (by simpa using hpiece) (hfits hpiece)
  | cons c cs ih =>
      rw [splitAfter]
      by_cases hfull : piece ≠ [] ∧ limit < byteSize piece + c.utf8Size
      · obtain ⟨hpiece, hlong⟩ := hfull
        rw [if_pos ⟨hpiece, hlong⟩]
        apply Packed.cons (by simpa using hpiece) (hfits hpiece)
        · intro d rest hd
          obtain ⟨rfl, -⟩ := List.cons.inj hd
          rwa [Text.byteSize_reverse]
        · exact ih [c] fun _ => fits_single limit c
      · rw [if_neg hfull]
        have hlonger : c :: piece ≠ [] → Fits limit (c :: piece).reverse := by
          intro _
          by_cases hpiece : piece = []
          · subst hpiece
            exact fits_single limit c
          · left
            rw [Text.byteSize_reverse, Text.byteSize_cons, Nat.add_comm]
            exact Nat.le_of_not_lt fun hlong => hfull ⟨hpiece, hlong⟩
        have hnext := ih (c :: piece) hlonger
        rw [List.reverse_cons, List.append_assoc, Text.byteSize_cons, Nat.add_comm] at hnext
        exact hnext

/-! ## Going back from the limit -/

/-- Go back from a byte to the nearest with which a character begins. -/
def walkBack (bytes : List UInt8) : Nat → Nat
  | 0 => 0
  | n + 1 => if isBoundary bytes (n + 1) then n + 1 else walkBack bytes n

theorem walkBack_le (bytes : List UInt8) (n : Nat) : walkBack bytes n ≤ n := by
  induction n with
  | zero => exact Nat.le_refl 0
  | succ n ih =>
      rw [walkBack]
      split
      · exact Nat.le_refl _
      · exact Nat.le_succ_of_le ih

/-- Going back ends between two characters. -/
theorem exists_walkBack (cs : List Char) (n : Nat) : ∃ front back, cs = front ++ back ∧
    walkBack (toBytes cs) n = byteSize front := by
  induction n with
  | zero => exact ⟨[], cs, rfl, rfl⟩
  | succ n ih =>
      rw [walkBack]
      split
      · exact Text.isBoundary_iff.mp ‹_›
      · exact ih

/-- Going back passes no beginning of a character. -/
theorem le_walkBack (front back : List Char) {n : Nat} (h : byteSize front ≤ n) :
    byteSize front ≤ walkBack (toBytes (front ++ back)) n := by
  induction n with
  | zero => exact h
  | succ n ih =>
      rw [walkBack]
      split
      · exact h
      · rename_i hboundary
        apply ih
        -- A character begins behind the front, so that was not gone over.
        by_contra hlong
        apply hboundary
        exact Text.isBoundary_iff.mpr ⟨front, back, rfl, by omega⟩

/-- Where the first piece of a text ends that is longer than the limit. -/
def cut (limit : Nat) (cs : List Char) : Nat :=
  if walkBack (toBytes cs) limit = 0 then (cs.head?.map Char.utf8Size).getD (byteSize cs)
  else walkBack (toBytes cs) limit

/-- **The cut is behind the longest piece that fits**, which is not empty. -/
theorem exists_cut {limit : Nat} {cs : List Char} (h : limit < byteSize cs) :
    ∃ piece rest, cs = piece ++ rest ∧ cut limit cs = byteSize piece ∧ piece ≠ [] ∧
      Fits limit piece ∧ ∀ c more, rest = c :: more → limit < byteSize piece + c.utf8Size := by
  unfold cut
  by_cases hzero : walkBack (toBytes cs) limit = 0
  · obtain ⟨c, cs, rfl⟩ := List.exists_cons_of_ne_nil (show cs ≠ [] by rintro rfl; cases h)
    have hwide : limit < c.utf8Size := by
      by_contra hnarrow
      have hpassed := le_walkBack [c] cs (show byteSize [c] ≤ limit by simpa using hnarrow)
      have hpos := c.utf8Size_pos
      rw [List.singleton_append, hzero, Text.byteSize_cons] at hpassed
      omega
    rw [if_pos hzero]
    refine ⟨[c], cs, rfl, rfl, by simp, fits_single limit c, ?_⟩
    intro d more _
    rw [Text.byteSize_cons]
    omega
  · obtain ⟨piece, rest, rfl, hsize⟩ := exists_walkBack cs limit
    rw [if_neg hzero]
    refine ⟨piece, rest, rfl, hsize, ?_, ?_, ?_⟩
    · rintro rfl
      exact hzero hsize
    · left
      rw [← hsize]
      exact walkBack_le _ _
    · rintro c more rfl
      by_contra hshort
      have hpassed := le_walkBack (piece ++ [c]) more
        (show byteSize (piece ++ [c]) ≤ limit by simpa using hshort)
      have hpos := c.utf8Size_pos
      rw [List.append_assoc, List.singleton_append, hsize] at hpassed
      simp only [Text.byteSize_append, Text.byteSize_cons, Text.byteSize_nil] at hpassed
      omega

/-- Behind a cut the text is shorter. -/
theorem length_lt_of_skip?_cut {limit : Nat} {cs rest : List Char} (h : limit < byteSize cs)
    (hrest : skip? (cut limit cs) cs = some rest) : rest.length < cs.length := by
  obtain ⟨piece, tail, rfl, hcut, hpiece, -⟩ := exists_cut h
  rw [hcut, Text.skip?_append] at hrest
  obtain rfl := Option.some.inj hrest
  have hpos := List.length_pos_of_ne_nil hpiece
  rw [List.length_append]
  omega

/-- Cut a text at the limit, and again what is left; `none`, if a cut does not lie
between two characters. -/
def cutAll? (limit : Nat) (cs : List Char) : Option (List (List Char)) :=
  if _ : byteSize cs ≤ limit then some (if cs = [] then [] else [cs])
  else
    (first? (cut limit cs) cs).bind fun piece =>
      match _ : skip? (cut limit cs) cs with
      | some rest => (cutAll? limit rest).map (piece :: ·)
      | none => none
termination_by cs.length
decreasing_by
  rename_i hlong hrest
  exact length_lt_of_skip?_cut (Nat.lt_of_not_le hlong) hrest

theorem cutAll?_of_long {limit : Nat} {cs : List Char} (h : limit < byteSize cs) :
    cutAll? limit cs = (first? (cut limit cs) cs).bind fun piece =>
      (skip? (cut limit cs) cs).bind fun rest => (cutAll? limit rest).map (piece :: ·) := by
  rw [cutAll?, dif_neg (Nat.not_le_of_lt h)]
  congr 1
  funext piece
  split
  · rename_i rest hrest
    rw [hrest]
    rfl
  · rename_i hnone
    rw [hnone]
    rfl

/-- **Cutting again and again packs the text**, and never cuts through a character. -/
theorem exists_cutAll? (limit : Nat) (cs : List Char) :
    ∃ pieces, cutAll? limit cs = some pieces ∧ Packed limit cs pieces := by
  induction hlength : cs.length using Nat.strongRecOn generalizing cs with
  | ind length ih =>
      by_cases hshort : byteSize cs ≤ limit
      · rw [cutAll?, dif_pos hshort]
        refine ⟨_, rfl, ?_⟩
        split
        · rename_i hempty
          rw [hempty]
          exact .nil limit
        · exact .single ‹_› (.inl hshort)
      · have hlong := Nat.lt_of_not_le hshort
        obtain ⟨piece, rest, rfl, hcut, hpiece, hfits, hnext⟩ := exists_cut hlong
        have hfirst : first? (cut limit (piece ++ rest)) (piece ++ rest) = some piece := by
          rw [hcut, Text.first?_append]
        have hskip : skip? (cut limit (piece ++ rest)) (piece ++ rest) = some rest := by
          rw [hcut, Text.skip?_append]
        have hshorter := length_lt_of_skip?_cut hlong hskip
        obtain ⟨pieces, hpieces, hpacked⟩ := ih rest.length (hlength ▸ hshorter) rest rfl
        refine ⟨piece :: pieces, ?_, hpacked.cons hpiece hfits hnext⟩
        rw [cutAll?_of_long hlong, hfirst, hskip, Option.bind_some, Option.bind_some, hpieces]
        rfl

/-! ## The pieces of a literal -/

/-- **Splitting a literal loses nothing, and every piece is as long as can be.** The
pieces make up the text, none is empty, each is within the limit or a single character
that is wider, and the character behind any of them would exceed the limit; no other
pieces are like that. Going back from the limit to the beginning of a character, byte by
byte, and cutting there gives the same pieces, and no cut goes through a character. -/
theorem split_packed (limit : Nat) (text : String) :
    (∀ pieces, Packed (max limit 1) text.toList pieces ↔
        pieces = (split limit text).map String.toList) ∧
      cutAll? (max limit 1) text.toList = some ((split limit text).map String.toList) := by
  have hpacked : Packed (max limit 1) text.toList ((split limit text).map String.toList) := by
    have htoList : String.toList ∘ String.ofList = id := by
      funext cs
      exact String.toList_ofList
    rw [split, List.map_map, htoList, List.map_id]
    exact packed_splitAfter [] (absurd rfl) text.toList
  constructor
  · intro pieces
    constructor
    · exact fun h => h.unique hpacked
    · rintro rfl
      exact hpacked
  · obtain ⟨pieces, hpieces, hcut⟩ := exists_cutAll? (max limit 1) text.toList
    rw [hpieces, hcut.unique hpacked]

end Templating.Literal
