import Templating.Literal.Escape

/-!
# Reading string literals

What a compiler makes of the text between the quotes of a string literal, by
the rules of each target, and that it reads back what has been escaped. A
reader takes one character after the other. It refuses what ends the literal,
an escape that it does not know, and, where the target has string templates, a
`$` that is not escaped, since it may begin one.
-/

namespace Templating.Literal

/-! ## Numbers in escapes -/

/-- What a hexadecimal digit stands for. -/
def hexValue? (c : Char) : Option Nat :=
  if '0' ≤ c ∧ c ≤ '9' then some (c.toNat - 0x30)
  else if 'a' ≤ c ∧ c ≤ 'f' then some (c.toNat - 0x61 + 10)
  else if 'A' ≤ c ∧ c ≤ 'F' then some (c.toNat - 0x41 + 10)
  else none

theorem hexValue?_digitChar {n : Nat} (h : n < 16) : hexValue? (Nat.digitChar n) = some n := by
  have hall : ∀ m < 16, hexValue? (Nat.digitChar m) = some m := by decide
  exact hall n h

theorem digitChar_ne_brace {n : Nat} (h : n < 16) : Nat.digitChar n ≠ '}' := by
  intro hbrace
  have := hexValue?_digitChar h
  rw [hbrace, show hexValue? '}' = none by decide] at this
  exact absurd this (by simp)

/-! ## Numbered characters in braces -/

/-- The escapes of one character. -/
def named? : Target → Char → Option Char
  | _, '\\' => some '\\'
  | _, '"' => some '"'
  | _, '\x27' => some '\x27'
  | _, 'n' => some '\n'
  | _, 'r' => some '\r'
  | _, 't' => some '\t'
  | .rust, '0' => some '\x00'
  | .kotlin, 'b' => some '\x08'
  | .kotlin, '$' => some '$'
  | _, _ => none

/-- Where a reader stands: in the text, behind a backslash, before the brace of
a numbered character, or behind some of its digits. -/
inductive Braced where
  | text
  | backslash
  | number
  | digits (count value : Nat)

/-- The characters that a literal stands for. -/
def readBraced? : Braced → List Char → Option (List Char)
  | .text, [] => some []
  | _, [] => none
  | .text, c :: cs =>
      if c = '\\' then readBraced? .backslash cs
      else if c = '"' ∨ c = '\r' then none
      else (readBraced? .text cs).map (c :: ·)
  | .backslash, c :: cs =>
      if c = 'u' then readBraced? .number cs
      else (named? .rust c).bind fun x => (readBraced? .text cs).map (x :: ·)
  | .number, c :: cs => if c = '{' then readBraced? (.digits 0 0) cs else none
  | .digits count value, c :: cs =>
      if c = '}' then
        if 0 < count ∧ value.isValidChar then (readBraced? .text cs).map (Char.ofNat value :: ·)
        else none
      else if count < 6 then
        (hexValue? c).bind fun digit => readBraced? (.digits (count + 1) (16 * value + digit)) cs
      else none

theorem readBraced?_digit {count value n : Nat} (hcount : count < 6) (hn : n < 16)
    (cs : List Char) : readBraced? (.digits count value) (Nat.digitChar n :: cs) =
      readBraced? (.digits (count + 1) (16 * value + n)) cs := by
  rw [readBraced?, if_neg (digitChar_ne_brace hn), if_pos hcount, hexValue?_digitChar hn]
  rfl

/-- A numbered character of at most two digits is read back. -/
theorem readBraced?_number {n : Nat} (hn : n < 0x100) (cs : List Char) :
    readBraced? .number ('{' :: (Nat.toDigits 16 n ++ '}' :: cs)) =
      (readBraced? .text cs).map (Char.ofNat n :: ·) := by
  have hvalid : n.isValidChar := Or.inl (by omega)
  have hend (count : Nat) (hcount : 0 < count) : readBraced? (.digits count n) ('}' :: cs) =
      (readBraced? .text cs).map (Char.ofNat n :: ·) := by
    rw [readBraced?, if_pos rfl, if_pos ⟨hcount, hvalid⟩]
  rw [readBraced?, if_pos rfl, Nat.toDigits_eq_if (by decide)]
  split
  · rename_i hsmall
    rw [List.singleton_append, readBraced?_digit (by decide) hsmall, Nat.mul_zero, Nat.zero_add,
      Nat.zero_add]
    exact hend 1 (by decide)
  · have hhigh : n / 16 < 16 := by omega
    have hlow : n % 16 < 16 := Nat.mod_lt _ (by decide)
    rw [Nat.toDigits_of_lt_base hhigh, List.singleton_append, List.cons_append,
      readBraced?_digit (by decide) hhigh, List.singleton_append,
      readBraced?_digit (by decide) hlow, Nat.mul_zero, Nat.zero_add, Nat.zero_add,
      Nat.div_add_mod]
    exact hend 2 (by decide)

/-- An escaped character is read back. -/
theorem readBraced?_escapeBraced (c : Char) (cs : List Char) :
    readBraced? .text (escapeBraced c ++ cs) = (readBraced? .text cs).map (c :: ·) := by
  unfold escapeBraced
  split
  -- The characters with an escape of their own are read back by computation.
  case h_7 _ hbackslash hquote _ hreturn _ _ =>
    split
    · rename_i hcontrol
      have hsmall : c.toNat < 0x100 := by
        simp only [isControl, Bool.or_eq_true, Bool.and_eq_true, decide_eq_true_eq] at hcontrol
        omega
      have := readBraced?_number hsmall cs
      rw [Char.ofNat_toNat] at this
      simpa [readBraced?] using this
    · rw [List.singleton_append, readBraced?, if_neg hbackslash,
        if_neg (not_or.mpr ⟨hquote, hreturn⟩)]
  all_goals rfl

/-! ## Numbered code units -/

/-- Where a reader stands: in the text, behind a backslash, or behind some
digits of a code unit, of which so many are left. -/
inductive Numbered where
  | text
  | backslash
  | digits (left value : Nat)

/-- The UTF-16 code units that a literal stands for. -/
def readUnits? : Numbered → List Char → Option (List Nat)
  | .text, [] => some []
  | _, [] => none
  | .text, c :: cs =>
      if c = '\\' then readUnits? .backslash cs
      else if c = '"' ∨ c = '$' ∨ c = '\n' ∨ c = '\r' then none
      else (readUnits? .text cs).map (codeUnits c ++ ·)
  | .backslash, c :: cs =>
      if c = 'u' then readUnits? (.digits 4 0) cs
      else (named? .kotlin c).bind fun x => (readUnits? .text cs).map (codeUnits x ++ ·)
  | .digits left value, c :: cs =>
      (hexValue? c).bind fun digit =>
        if left ≤ 1 then (readUnits? .text cs).map ((16 * value + digit) :: ·)
        else readUnits? (.digits (left - 1) (16 * value + digit)) cs

theorem readUnits?_fourDigits {n : Nat} (hn : n < 0x10000) (cs : List Char) :
    readUnits? (.digits 4 0) (fourDigits n ++ cs) = (readUnits? .text cs).map (n :: ·) := by
  have hdigit (m : Nat) : hexValue? (Nat.digitChar (m % 16)) = some (m % 16) :=
    hexValue?_digitChar (Nat.mod_lt _ (by decide))
  have hsum : 16 * (16 * (16 * (n / 0x1000 % 16) + n / 0x100 % 16) + n / 0x10 % 16) + n % 16 =
      n := by
    omega
  simp [fourDigits, readUnits?, hdigit, hsum]

theorem codeUnits_lt (c : Char) : ∀ unit ∈ codeUnits c, unit < 0x10000 := by
  have hc : c.toNat < 0x110000 := by
    rcases c.valid with h | ⟨-, h⟩
    · exact Nat.lt_trans h (by decide)
    · exact h
  unfold codeUnits
  simp only
  split
  · rename_i hsmall
    simpa using hsmall
  · intro unit hunit
    simp only [List.mem_cons, List.not_mem_nil, or_false] at hunit
    omega

/-- Escaped code units are read back. -/
theorem readUnits?_numbered {units : List Nat} (h : ∀ unit ∈ units, unit < 0x10000)
    (cs : List Char) :
    readUnits? .text ((units.flatMap fun unit => '\\' :: 'u' :: fourDigits unit) ++ cs) =
      (readUnits? .text cs).map (units ++ ·) := by
  induction units with
  | nil => simp
  | cons unit units ih =>
      obtain ⟨hunit, hunits⟩ := List.forall_mem_cons.mp h
      have hread (rest : List Char) : readUnits? .text ('\\' :: 'u' :: (fourDigits unit ++ rest)) =
          (readUnits? .text rest).map (unit :: ·) := by
        rw [readUnits?, if_pos rfl, readUnits?, if_pos rfl]
        exact readUnits?_fourDigits hunit rest
      simp only [List.flatMap_cons, List.cons_append, List.append_assoc]
      rw [hread, ih hunits, Option.map_map]
      rfl

/-- An escaped character is read back. -/
theorem readUnits?_escapeUnits (c : Char) (cs : List Char) :
    readUnits? .text (escapeUnits c ++ cs) = (readUnits? .text cs).map (codeUnits c ++ ·) := by
  unfold escapeUnits
  split
  case h_8 _ hbackslash hquote hdollar hnewline hreturn _ _ =>
    split
    · exact readUnits?_numbered (codeUnits_lt c) cs
    · rw [List.singleton_append, readUnits?, if_neg hbackslash,
        if_neg (not_or.mpr ⟨hquote, not_or.mpr ⟨hdollar, not_or.mpr ⟨hnewline, hreturn⟩⟩⟩)]
  all_goals rfl

/-! ## Code units -/

/-- The characters that UTF-16 code units stand for. -/
def ofUnits? : List Nat → Option (List Char)
  | [] => some []
  | [unit] => if unit.isValidChar ∧ unit < 0x10000 then some [Char.ofNat unit] else none
  | unit :: next :: units =>
      if unit.isValidChar ∧ unit < 0x10000 then
        (ofUnits? (next :: units)).map (Char.ofNat unit :: ·)
      else if 0xd800 ≤ unit ∧ unit < 0xdc00 ∧ 0xdc00 ≤ next ∧ next < 0xe000 then
        (ofUnits? units).map
          (Char.ofNat (0x10000 + (unit - 0xd800) * 0x400 + (next - 0xdc00)) :: ·)
      else none

/-- The characters that the text between the quotes of a literal stands for. -/
def read? : Target → List Char → Option (List Char)
  | .rust, cs => readBraced? .text cs
  | .kotlin, cs => (readUnits? .text cs).bind ofUnits?

theorem readBraced?_escape (text : String) :
    readBraced? .text (escape .rust text).toList = some text.toList := by
  rw [escape, String.toList_ofList]
  show readBraced? .text (text.toList.flatMap escapeBraced) = some text.toList
  induction text.toList with
  | nil => rfl
  | cons c cs ih => rw [List.flatMap_cons, readBraced?_escapeBraced, ih, Option.map_some]

theorem readUnits?_escape (text : String) :
    readUnits? .text (escape .kotlin text).toList = some (text.toList.flatMap codeUnits) := by
  rw [escape, String.toList_ofList]
  show readUnits? .text (text.toList.flatMap escapeUnits) = some (text.toList.flatMap codeUnits)
  induction text.toList with
  | nil => rfl
  | cons c cs ih => rw [List.flatMap_cons, readUnits?_escapeUnits, ih]; rfl

/-- The characters that a string literal stands for, with its quotes. -/
def unquote? (t : Target) (literal : String) : Option (List Char) :=
  match literal.toList with
  | '"' :: rest => if rest.getLast? = some '"' then read? t rest.dropLast else none
  | _ => none

end Templating.Literal
