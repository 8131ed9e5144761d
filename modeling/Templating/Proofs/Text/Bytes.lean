import Mathlib.Data.List.Basic
import Mathlib.Data.List.Infix
import Templating.Text.Slice

/-!
# Text as bytes

A reader of bytes points into its text by byte offsets. A slice can be cut only
between characters, which `cut?` makes sure of. Single bytes are compared with ASCII
characters only: the bytes of any other character are at least 128, so they are
mistaken for none of them, and looking at the last byte or at the next one tells as
much as looking at the character.
-/

namespace Templating.Text

/-! ## Cutting -/

/-- The text behind the first `n` bytes, if a character ends there. -/
def skip? : Nat → List Char → Option (List Char)
  | 0, cs => some cs
  | _ + 1, [] => none
  | n + 1, c :: cs => if c.utf8Size ≤ n + 1 then skip? (n + 1 - c.utf8Size) cs else none

/-- The first `n` bytes of the text, if a character ends there. -/
def first? : Nat → List Char → Option (List Char)
  | 0, _ => some []
  | _ + 1, [] => none
  | n + 1, c :: cs =>
      if c.utf8Size ≤ n + 1 then (first? (n + 1 - c.utf8Size) cs).map (c :: ·) else none

/-- The slice between two byte offsets. They have to be in order, in the text, and
between characters. -/
def cut? (source : List Char) (start stop : Nat) : Option Slice :=
  if start ≤ stop then
    (skip? start source).bind fun rest =>
      (first? (stop - start) rest).map fun cs => ⟨start, String.ofList cs⟩
  else none

variable {source front cs back : List Char} {c : Char}

theorem skip?_append (xs ys : List Char) : skip? (byteSize xs) (xs ++ ys) = some ys := by
  induction xs with
  | nil => cases ys <;> rfl
  | cons c xs ih =>
      have hsize := c.utf8Size_pos
      obtain ⟨n, hn⟩ : ∃ n, byteSize (c :: xs) = n + 1 := ⟨byteSize (c :: xs) - 1, by
        rw [byteSize_cons]
        omega⟩
      rw [hn, List.cons_append, skip?, ← hn, byteSize_cons, if_pos (by omega),
        Nat.add_sub_cancel_left, ih]

theorem first?_append (xs ys : List Char) : first? (byteSize xs) (xs ++ ys) = some xs := by
  induction xs with
  | nil => cases ys <;> rfl
  | cons c xs ih =>
      have hsize := c.utf8Size_pos
      obtain ⟨n, hn⟩ : ∃ n, byteSize (c :: xs) = n + 1 := ⟨byteSize (c :: xs) - 1, by
        rw [byteSize_cons]
        omega⟩
      rw [hn, List.cons_append, first?, ← hn, byteSize_cons, if_pos (by omega),
        Nat.add_sub_cancel_left, ih]
      rfl

theorem eq_of_skip? {n : Nat} {rest : List Char} (h : skip? n source = some rest) :
    ∃ front, source = front ++ rest ∧ n = byteSize front := by
  induction source generalizing n with
  | nil =>
      cases n with
      | zero => exact ⟨[], Option.some.inj h, rfl⟩
      | succ n => cases h
  | cons c cs ih =>
      cases n with
      | zero => exact ⟨[], Option.some.inj h, rfl⟩
      | succ n =>
          rw [skip?] at h
          split at h
          · rename_i hsize
            obtain ⟨front, rfl, hn⟩ := ih h
            exact ⟨c :: front, rfl, by rw [byteSize_cons]; omega⟩
          · cases h

theorem eq_of_first? {n : Nat} (h : first? n source = some cs) :
    ∃ back, source = cs ++ back ∧ n = byteSize cs := by
  induction source generalizing n cs with
  | nil =>
      cases n with
      | zero => exact ⟨[], by rw [← Option.some.inj h]; rfl, by rw [← Option.some.inj h]; rfl⟩
      | succ n => cases h
  | cons c source ih =>
      cases n with
      | zero => exact ⟨c :: source, by rw [← Option.some.inj h]; rfl,
          by rw [← Option.some.inj h]; rfl⟩
      | succ n =>
          rw [first?] at h
          split at h
          · rename_i hsize
            obtain ⟨cs', hcs', rfl⟩ := Option.map_eq_some_iff.mp h
            obtain ⟨back, rfl, hn⟩ := ih hcs'
            exact ⟨back, rfl, by rw [byteSize_cons]; omega⟩
          · cases h

/-- **A slice can be cut just where it lies in the text between characters.** -/
theorem cut?_eq_some_iff {start stop : Nat} {x : Slice} : cut? source start stop = some x ↔
    ∃ front cs back, source = front ++ cs ++ back ∧ start = byteSize front ∧
      stop = byteSize (front ++ cs) ∧ x = ⟨start, String.ofList cs⟩ := by
  constructor
  · intro h
    unfold cut? at h
    split at h
    · rename_i hle
      obtain ⟨rest, hrest, h⟩ := Option.bind_eq_some_iff.mp h
      obtain ⟨cs, hcs, rfl⟩ := Option.map_eq_some_iff.mp h
      obtain ⟨front, rfl, hstart⟩ := eq_of_skip? hrest
      obtain ⟨back, rfl, hstop⟩ := eq_of_first? hcs
      refine ⟨front, cs, back, by rw [List.append_assoc], hstart, ?_, rfl⟩
      rw [byteSize_append]
      omega
    · cases h
  · rintro ⟨front, cs, back, rfl, rfl, rfl, rfl⟩
    unfold cut?
    rw [if_pos (by rw [byteSize_append]; omega), List.append_assoc, skip?_append,
      Option.bind_some, byteSize_append, Nat.add_sub_cancel_left, first?_append]
    rfl

theorem cut?_append (front cs back : List Char) :
    cut? (front ++ cs ++ back) (byteSize front) (byteSize (front ++ cs)) =
      some ⟨byteSize front, String.ofList cs⟩ :=
  cut?_eq_some_iff.mpr ⟨front, cs, back, rfl, rfl, rfl, rfl⟩

/-! ## Bytes -/

/-- The bytes of the text, each as the character with its number. -/
def octets (cs : List Char) : List Char :=
  (toBytes cs).map fun byte => Char.ofNat byte.toNat

/-- The character is one of ASCII. -/
def IsAscii (c : Char) : Prop :=
  c.toNat < 128

instance (c : Char) : Decidable (IsAscii c) :=
  inferInstanceAs (Decidable (c.toNat < 128))

@[simp] theorem octets_nil : octets [] = [] := rfl

theorem octets_append (xs ys : List Char) : octets (xs ++ ys) = octets xs ++ octets ys := by
  simp [octets]

theorem octets_cons (c : Char) (cs : List Char) : octets (c :: cs) = octets [c] ++ octets cs :=
  octets_append [c] cs

theorem length_octets (cs : List Char) : (octets cs).length = byteSize cs := by
  rw [octets, List.length_map, length_toBytes]

theorem octets_singleton (c : Char) :
    octets [c] = (String.utf8EncodeChar c).map fun byte => Char.ofNat byte.toNat := by
  simp [octets, toBytes]

theorem octets_ascii (h : IsAscii c) : octets [c] = [c] := by
  have hval : c.val.toNat ≤ 127 := Nat.le_of_lt_succ h
  rw [octets_singleton, String.utf8EncodeChar, if_pos hval]
  have hbyte : (UInt8.ofNat c.val.toNat).toNat = c.toNat := by
    rw [UInt8.toNat_ofNat']
    exact Nat.mod_eq_of_lt (by omega)
  rw [List.map_singleton, hbyte, Char.ofNat_toNat]

theorem utf8Size_ascii (h : IsAscii c) : c.utf8Size = 1 := by
  have hlength := length_octets [c]
  rw [octets_ascii h] at hlength
  exact hlength.symm

theorem toNat_octet (byte : UInt8) : (Char.ofNat byte.toNat).toNat = byte.toNat := by
  have hvalid : byte.toNat.isValidChar := by
    have := byte.toNat_lt
    exact Or.inl (by omega)
  rw [Char.ofNat, dif_pos hvalid]
  rfl

theorem octets_wide (h : ¬ IsAscii c) : ∀ x ∈ octets [c], ¬ IsAscii x := by
  have hval : ¬ c.val.toNat ≤ 127 := fun hle => h (Nat.lt_succ_of_le hle)
  have hmax : c.val.toNat < 0x110000 := by
    rcases c.valid with h | h
    · exact Nat.lt_trans h (by decide)
    · exact h.2
  intro x hx
  rw [octets_singleton] at hx
  obtain ⟨byte, hbyte, rfl⟩ := List.mem_map.mp hx
  rw [IsAscii, toNat_octet, Nat.not_lt]
  rw [String.utf8EncodeChar, if_neg hval] at hbyte
  split at hbyte
  · simp only [List.mem_cons, List.not_mem_nil, or_false] at hbyte
    rcases hbyte with rfl | rfl <;> rw [UInt8.toNat_ofNat'] <;> omega
  · split at hbyte
    · simp only [List.mem_cons, List.not_mem_nil, or_false] at hbyte
      rcases hbyte with rfl | rfl | rfl <;> rw [UInt8.toNat_ofNat'] <;> omega
    · simp only [List.mem_cons, List.not_mem_nil, or_false] at hbyte
      rcases hbyte with rfl | rfl | rfl | rfl <;> rw [UInt8.toNat_ofNat'] <;> omega

theorem octets_ne_nil (c : Char) : octets [c] ≠ [] := by
  intro h
  have hlength := congrArg List.length h
  have hsize := c.utf8Size_pos
  rw [length_octets] at hlength
  simp at hlength
  omega

theorem toBytes_octets (cs : List Char) :
    (octets cs).map (fun x => UInt8.ofNat x.toNat) = toBytes cs := by
  rw [octets, List.map_map]
  have hbyte : (fun x : Char => UInt8.ofNat x.toNat) ∘ (fun byte : UInt8 =>
      Char.ofNat byte.toNat) = id := by
    funext byte
    rw [Function.comp_apply, toNat_octet, UInt8.ofNat_toNat]
    rfl
  rw [hbyte, List.map_id]

/-- No character begins as another one does. -/
theorem eq_of_octets {x y : Char} {xs ys : List Char}
    (h : octets [x] ++ xs = octets [y] ++ ys) : x = y := by
  have hbytes := congrArg (List.map fun x => UInt8.ofNat x.toNat) h
  have hone (c : Char) : toBytes [c] = String.utf8EncodeChar c := by simp [toBytes]
  rw [List.map_append, List.map_append, toBytes_octets, toBytes_octets, hone, hone] at hbytes
  have harray := congrArg List.toByteArray hbytes
  rw [List.toByteArray_append, List.toByteArray_append] at harray
  have hx := ByteArray.utf8DecodeChar?_utf8EncodeChar_append (c := x)
    (b := (xs.map fun x => UInt8.ofNat x.toNat).toByteArray)
  rw [harray, ByteArray.utf8DecodeChar?_utf8EncodeChar_append] at hx
  exact (Option.some.inj hx).symm

/-- **The bytes of a text begin with those of another just when the text does.** -/
theorem octets_prefix {xs ys : List Char} : octets xs <+: octets ys ↔ xs <+: ys := by
  constructor
  · intro h
    induction xs generalizing ys with
    | nil => exact List.nil_prefix
    | cons x xs ih =>
        rw [octets_cons] at h
        cases ys with
        | nil => exact absurd (List.append_eq_nil_iff.mp (List.prefix_nil.mp h)).1 (octets_ne_nil x)
        | cons y ys =>
            rw [octets_cons y] at h
            obtain ⟨rest, hrest⟩ := h
            rw [List.append_assoc] at hrest
            obtain rfl := eq_of_octets hrest
            exact List.cons_prefix_cons.mpr ⟨rfl, ih ⟨rest, List.append_cancel_left hrest⟩⟩
  · rintro ⟨zs, rfl⟩
    rw [octets_append]
    exact List.prefix_append _ _

theorem isPrefixOf_octets (xs ys : List Char) :
    (octets xs).isPrefixOf (octets ys) = xs.isPrefixOf ys := by
  rw [Bool.eq_iff_iff, List.isPrefixOf_iff_prefix, List.isPrefixOf_iff_prefix, octets_prefix]

/-! ## Looking back -/

/-- The last byte of a character is the character, or neither is one of ASCII. -/
def Twin (x c : Char) : Prop :=
  x = c ∨ ¬ IsAscii x ∧ ¬ IsAscii c

theorem Twin.eq_iff {x c : Char} (h : Twin x c) {a : Char} (ha : IsAscii a) : x = a ↔ c = a := by
  rcases h with rfl | ⟨hx, hc⟩
  · exact Iff.rfl
  · constructor
    · rintro rfl
      exact absurd ha hx
    · rintro rfl
      exact absurd ha hc

/-- The first byte of a character and the others. -/
theorem octets_first (c : Char) : ∃ x xs, octets [c] = x :: xs ∧ Twin x c := by
  by_cases hc : IsAscii c
  · exact ⟨c, [], octets_ascii hc, Or.inl rfl⟩
  · obtain ⟨x, xs, hxs⟩ := List.exists_cons_of_ne_nil (octets_ne_nil c)
    exact ⟨x, xs, hxs, Or.inr ⟨octets_wide hc x (by simp [hxs]), hc⟩⟩

/-- The last byte of a character and the others. -/
theorem octets_last (c : Char) : ∃ xs x, octets [c] = xs ++ [x] ∧ Twin x c := by
  by_cases hc : IsAscii c
  · exact ⟨[], c, octets_ascii hc, Or.inl rfl⟩
  · rcases List.eq_nil_or_concat (octets [c]) with hnil | ⟨xs, x, hxs⟩
    · exact absurd hnil (octets_ne_nil c)
    · rw [List.concat_eq_append] at hxs
      exact ⟨xs, x, hxs, Or.inr ⟨octets_wide hc x (by simp [hxs]), hc⟩⟩

/-- The sort does not tell characters outside ASCII apart. -/
def AsciiSort (p : Char → Bool) : Prop :=
  ∀ x c, ¬ IsAscii x → ¬ IsAscii c → p x = p c

theorem Twin.same {p : Char → Bool} (hp : AsciiSort p) {x c : Char} (h : Twin x c) :
    p x = p c := by
  rcases h with rfl | ⟨hx, hc⟩
  · rfl
  · exact hp x c hx hc

theorem AsciiSort.of_false {p : Char → Bool} (hp : ∀ c, p c = true → IsAscii c) :
    AsciiSort p := by
  have hfalse (c : Char) (hc : ¬ IsAscii c) : p c = false := by
    cases h : p c with
    | false => rfl
    | true => exact absurd (hp c h) hc
  intro x c hx hc
  rw [hfalse x hx, hfalse c hc]

theorem asciiSort_isAsciiBlank : AsciiSort isAsciiBlank := by
  refine .of_false fun c hc => ?_
  simp only [isAsciiBlank, Bool.or_eq_true, beq_iff_eq] at hc
  rcases hc with (((rfl | rfl) | rfl) | rfl) | rfl <;> decide

theorem asciiSort_beq {a : Char} (ha : IsAscii a) : AsciiSort (· == a) := by
  refine .of_false fun c hc => ?_
  rw [beq_iff_eq] at hc
  rwa [hc]

theorem AsciiSort.not {p : Char → Bool} (hp : AsciiSort p) : AsciiSort fun c => !p c := by
  intro x c hx hc
  show (!p x) = !p c
  rw [hp x c hx hc]

theorem AsciiSort.and {p q : Char → Bool} (hp : AsciiSort p) (hq : AsciiSort q) :
    AsciiSort fun c => p c && q c := by
  intro x c hx hc
  show (p x && q x) = (p c && q c)
  rw [hp x c hx hc, hq x c hx hc]

theorem AsciiSort.or {p q : Char → Bool} (hp : AsciiSort p) (hq : AsciiSort q) :
    AsciiSort fun c => p c || q c := by
  intro x c hx hc
  show (p x || q x) = (p c || q c)
  rw [hp x c hx hc, hq x c hx hc]

/-- All bytes of a character are of the sort that the character is of. -/
theorem AsciiSort.octets {p : Char → Bool} (hp : AsciiSort p) (c : Char) :
    ∀ x ∈ octets [c], p x = p c := by
  intro x hx
  by_cases hc : IsAscii c
  · rw [octets_ascii hc, List.mem_singleton] at hx
    rw [hx]
  · exact hp x c (octets_wide hc x hx) hc

theorem octets_takeWhile {p : Char → Bool} (hp : AsciiSort p) (cs : List Char) :
    (octets cs).takeWhile p = octets (cs.takeWhile p) := by
  induction cs with
  | nil => rfl
  | cons c cs ih =>
      rw [octets_cons]
      by_cases hc : p c = true
      · rw [List.takeWhile_cons_of_pos hc, octets_cons c (cs.takeWhile p),
          List.takeWhile_append_of_pos (fun x hx => (hp.octets c x hx).trans hc), ih]
      · obtain ⟨x, xs, hxs, hx⟩ := octets_first c
        rw [List.takeWhile_cons_of_neg hc, hxs, List.cons_append,
          List.takeWhile_cons_of_neg (by rwa [hx.same hp])]
        rfl

theorem suffix_snoc_iff {α : Type} {xs ys : List α} {a b : α} :
    xs ++ [a] <:+ ys ++ [b] ↔ a = b ∧ xs <:+ ys := by
  rw [← List.reverse_prefix, ← List.reverse_prefix, List.reverse_append, List.reverse_append]
  exact List.cons_prefix_cons

/-- **The bytes of a text end with ASCII characters just when the text does.** -/
theorem octets_suffix {w cs : List Char} (hw : ∀ c ∈ w, IsAscii c) :
    w <:+ octets cs ↔ w <:+ cs := by
  induction w using List.reverseRecOn generalizing cs with
  | nil => simp
  | append_singleton w a ih =>
      have ha : IsAscii a := hw a (by simp)
      have hrest : ∀ c ∈ w, IsAscii c := fun c hc => hw c (by simp [hc])
      rcases List.eq_nil_or_concat cs with rfl | ⟨cs, c, rfl⟩
      · rfl
      · rw [List.concat_eq_append, octets_append, suffix_snoc_iff]
        by_cases hc : IsAscii c
        · rw [octets_ascii hc, suffix_snoc_iff, ih hrest]
        · obtain ⟨xs, x, hxs, -⟩ := octets_last c
          have hx : ¬ IsAscii x := octets_wide hc x (by simp [hxs])
          rw [hxs, ← List.append_assoc, suffix_snoc_iff]
          constructor
          · rintro ⟨rfl, -⟩
            exact absurd ha hx
          · rintro ⟨rfl, -⟩
            exact absurd ha hc

/-- The bytes of what has been read, last character first, end with ASCII characters
just when that does. -/
theorem isSuffixOf_octets {w before : List Char} (hw : ∀ c ∈ w, IsAscii c) :
    w.isSuffixOf (octets before.reverse) = w.reverse.isPrefixOf before := by
  rw [Bool.eq_iff_iff, List.isSuffixOf_iff_suffix, octets_suffix hw, List.isPrefixOf_iff_prefix,
    ← List.reverse_prefix, List.reverse_reverse]

/-! ## Checked access -/

/-- The difference, if nothing is taken from zero. -/
def minus? (n k : Nat) : Option Nat :=
  if k ≤ n then some (n - k) else none

/-- The first `n` bytes. There have to be so many. -/
def firstBytes? (bytes : List Char) (n : Nat) : Option (List Char) :=
  if n ≤ bytes.length then some (bytes.take n) else none

/-- The bytes behind the first `n`. There have to be so many. -/
def restBytes? (bytes : List Char) (n : Nat) : Option (List Char) :=
  if n ≤ bytes.length then some (bytes.drop n) else none

/-- The byte before an offset, unless the offset is zero. It has to be there. -/
def byteBefore? (bytes : List Char) : Nat → Option (Option Char)
  | 0 => some none
  | n + 1 => bytes[n]?.map some

/-- The bytes between two offsets. They have to be in order and in the text. -/
def bytesBetween? (bytes : List Char) (start stop : Nat) : Option (List Char) :=
  if start ≤ stop ∧ stop ≤ bytes.length then some ((bytes.drop start).take (stop - start))
  else none

/-- Go on from a byte offset over at most `n` bytes of a sort. Every byte that is
looked at has to be there. -/
def onOver? (p : Char → Bool) (bytes : List Char) : Nat → Nat → Option Nat
  | i, 0 => some i
  | i, n + 1 => bytes[i]?.bind fun x => if p x then onOver? p bytes (i + 1) n else some i

/-- Go back from a byte offset over bytes of a sort. Every byte that is looked at has
to be there. -/
def backOver? (p : Char → Bool) (bytes : List Char) : Nat → Option Nat
  | 0 => some 0
  | n + 1 => bytes[n]?.bind fun x => if p x then backOver? p bytes n else some (n + 1)

/-- The bytes of a character stand behind those of the characters before it. -/
theorem octet_of_char (front : List Char) (c : Char) (after : List Char) {k : Nat}
    (hk : k < c.utf8Size) : ∃ x ∈ octets [c],
      (octets (front ++ c :: after))[byteSize front + k]? = some x := by
  have hlength : k < (octets [c]).length := by
    rw [length_octets]
    exact hk
  refine ⟨(octets [c])[k], List.getElem_mem _, ?_⟩
  rw [octets_append, octets_cons, List.getElem?_append_right (by rw [length_octets]; omega),
    length_octets, Nat.add_sub_cancel_left, List.getElem?_append_left hlength,
    List.getElem?_eq_getElem hlength]

/-- **Going back over bytes is going back over characters**, if the sort does not tell
characters outside ASCII apart. -/
theorem backOver?_octets {p : Char → Bool} (hp : AsciiSort p) (before after : List Char) :
    backOver? p (octets (before.reverse ++ after)) (byteSize before) =
      some (byteSize (before.dropWhile p)) := by
  induction before generalizing after with
  | nil => rfl
  | cons c before ih =>
      have hbytes : (c :: before).reverse ++ after = before.reverse ++ c :: after := by simp
      have hbyte (k : Nat) (hk : k < c.utf8Size) : ∃ x,
          (octets (before.reverse ++ c :: after))[byteSize before + k]? = some x ∧ p x = p c := by
        obtain ⟨x, hx, hget⟩ := octet_of_char before.reverse c after hk
        rw [byteSize_reverse] at hget
        exact ⟨x, hget, hp.octets c x hx⟩
      rw [hbytes, byteSize_cons, Nat.add_comm]
      by_cases hc : p c = true
      · -- All bytes of the character are gone over, the last one first.
        have hover (k : Nat) (hk : k ≤ c.utf8Size) :
            backOver? p (octets (before.reverse ++ c :: after)) (byteSize before + k) =
              backOver? p (octets (before.reverse ++ c :: after)) (byteSize before) := by
          induction k with
          | zero => rfl
          | succ k ihk =>
              obtain ⟨x, hget, hx⟩ := hbyte k (by omega)
              rw [← Nat.add_assoc, backOver?, hget, Option.bind_some, hx, if_pos hc,
                ihk (by omega)]
        rw [hover _ (Nat.le_refl _), ih, List.dropWhile_cons_of_pos hc]
      · obtain ⟨n, hn⟩ : ∃ n, c.utf8Size = n + 1 := ⟨c.utf8Size - 1, by
          have := c.utf8Size_pos
          omega⟩
        obtain ⟨x, hget, hx⟩ := hbyte n (by omega)
        rw [List.dropWhile_cons_of_neg hc, byteSize_cons, hn, ← Nat.add_assoc, backOver?, hget,
          Option.bind_some, hx, if_neg hc]
        congr 1
        omega

/-! ## What the checked access finds -/

theorem minus?_of_le {n k : Nat} (h : k ≤ n) : minus? n k = some (n - k) :=
  if_pos h

theorem firstBytes?_octets (xs ys : List Char) :
    firstBytes? (octets (xs ++ ys)) (byteSize xs) = some (octets xs) := by
  unfold firstBytes?
  rw [if_pos (by rw [length_octets, byteSize_append]; omega), octets_append, ← length_octets,
    List.take_left]

theorem restBytes?_octets (xs ys : List Char) :
    restBytes? (octets (xs ++ ys)) (byteSize xs) = some (octets ys) := by
  unfold restBytes?
  rw [if_pos (by rw [length_octets, byteSize_append]; omega), octets_append, ← length_octets,
    List.drop_left]

theorem bytesBetween?_octets (front cs back : List Char) :
    bytesBetween? (octets (front ++ cs ++ back)) (byteSize front) (byteSize (front ++ cs)) =
      some (octets cs) := by
  unfold bytesBetween?
  rw [if_pos (by simp only [length_octets, byteSize_append]; omega), octets_append,
    octets_append, List.append_assoc, ← length_octets front, List.drop_left, byteSize_append,
    length_octets, Nat.add_sub_cancel_left, ← length_octets cs, List.take_left]

/-- The byte behind a text is the first one of what follows. -/
theorem getElem?_octets (xs ys : List Char) :
    (octets (xs ++ ys))[byteSize xs]? = (octets ys).head? := by
  rw [octets_append, ← length_octets, List.getElem?_append_right (Nat.le_refl _), Nat.sub_self,
    List.head?_eq_getElem?]

theorem twin_head (cs : List Char) : Option.Rel Twin (octets cs).head? cs.head? := by
  cases cs with
  | nil => exact .none
  | cons c cs =>
      obtain ⟨x, xs, hxs, hx⟩ := octets_first c
      rw [octets_cons, hxs]
      exact .some hx

/-- The byte before a place tells as much as the character there. -/
theorem byteBefore?_octets (before after : List Char) : ∃ x?,
    byteBefore? (octets (before.reverse ++ after)) (byteSize before) = some x? ∧
      Option.Rel Twin x? before.head? := by
  cases before with
  | nil => exact ⟨none, rfl, .none⟩
  | cons c before =>
      obtain ⟨xs, x, hxs, hx⟩ := octets_last c
      have hsize : byteSize (c :: before) = (octets before.reverse ++ xs).length + 1 := by
        have hlength := congrArg List.length hxs
        rw [length_octets] at hlength
        simp only [List.length_append, List.length_cons, List.length_nil, byteSize_cons,
          byteSize_nil, length_octets, byteSize_reverse] at hlength ⊢
        omega
      refine ⟨some x, ?_, .some hx⟩
      rw [hsize, byteBefore?, List.reverse_cons, octets_append, octets_append, hxs,
        ← List.append_assoc (octets before.reverse), List.append_assoc,
        List.getElem?_append_right (Nat.le_refl _), Nat.sub_self]
      rfl

theorem byteBefore?_of_le {bytes : List Char} {i : Nat} (h : i ≤ bytes.length) :
    ∃ x?, byteBefore? bytes i = some x? := by
  cases i with
  | zero => exact ⟨none, rfl⟩
  | succ i => exact ⟨some bytes[i], by rw [byteBefore?, List.getElem?_eq_getElem h, Option.map_some]⟩

theorem rel_twin_iff {x? c? : Option Char} (h : Option.Rel Twin x? c?) {a : Char}
    (ha : IsAscii a) : x? = some a ↔ c? = some a := by
  cases h with
  | some h => simpa using h.eq_iff ha
  | none => exact Iff.rfl

theorem rel_twin_any {p : Char → Bool} (hp : AsciiSort p) {x? c? : Option Char}
    (h : Option.Rel Twin x? c?) : x?.any p = c?.any p := by
  cases h with
  | some h => exact h.same hp
  | none => rfl

theorem rel_twin_all {p : Char → Bool} (hp : AsciiSort p) {x? c? : Option Char}
    (h : Option.Rel Twin x? c?) : x?.all p = c?.all p := by
  cases h with
  | some h => exact h.same hp
  | none => rfl

theorem onOver?_eq {p : Char → Bool} {bytes : List Char} {i n : Nat} (h : i + n ≤ bytes.length) :
    onOver? p bytes i n = some (i + (((bytes.drop i).take n).takeWhile p).length) := by
  induction n generalizing i with
  | zero => simp [onOver?]
  | succ n ih =>
      rw [onOver?, List.getElem?_eq_getElem (by omega), Option.bind_some,
        List.drop_eq_getElem_cons (by omega), List.take_succ_cons]
      split
      · rename_i hp
        rw [ih (by omega), List.takeWhile_cons_of_pos hp, List.length_cons]
        congr 1
        omega
      · rename_i hp
        rw [List.takeWhile_cons_of_neg hp]
        rfl

/-- **Going on over bytes is going on over characters.** -/
theorem onOver?_octets {p : Char → Bool} (hp : AsciiSort p) (front cs back : List Char) :
    onOver? p (octets (front ++ cs ++ back)) (byteSize front) (byteSize cs) =
      some (byteSize (front ++ cs.takeWhile p)) := by
  rw [onOver?_eq (by simp only [length_octets, byteSize_append]; omega), octets_append,
    octets_append, List.append_assoc, ← length_octets front, List.drop_left, ← length_octets cs,
    List.take_left, octets_takeWhile hp, length_octets, length_octets, byteSize_append]

end Templating.Text
