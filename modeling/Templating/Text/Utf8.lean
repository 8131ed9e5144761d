/-!
# Bytes of text

The UTF-8 bytes of a character list, their number, and the way back. Bytes
are read one at a time by a machine that is either between characters or owes
some continuation bytes. A run of bytes that no character begins with is
reported once, as long as it could still have grown into a character, so
reading can either refuse the bytes or put U+FFFD in place of each such run.
-/

namespace Templating.Text

/-- How many bytes the characters take in UTF-8. -/
def byteSize (cs : List Char) : Nat :=
  cs.foldr (fun c n => c.utf8Size + n) 0

@[simp] theorem byteSize_nil : byteSize [] = 0 := rfl

@[simp] theorem byteSize_cons (c : Char) (cs : List Char) :
    byteSize (c :: cs) = c.utf8Size + byteSize cs := rfl

@[simp] theorem byteSize_append (xs ys : List Char) :
    byteSize (xs ++ ys) = byteSize xs + byteSize ys := by
  induction xs with
  | nil => simp
  | cons c cs ih => simp [ih, Nat.add_assoc]

@[simp] theorem byteSize_reverse (xs : List Char) : byteSize xs.reverse = byteSize xs := by
  induction xs with
  | nil => rfl
  | cons c cs ih => simp [ih, Nat.add_comm]

/-- The UTF-8 bytes of the characters. -/
def toBytes (cs : List Char) : List UInt8 :=
  cs.flatMap String.utf8EncodeChar

@[simp] theorem toBytes_append (xs ys : List Char) :
    toBytes (xs ++ ys) = toBytes xs ++ toBytes ys := by
  simp [toBytes]

theorem length_toBytes (cs : List Char) : (toBytes cs).length = byteSize cs := by
  induction cs with
  | nil => rfl
  | cons c cs ih =>
      have : (toBytes (c :: cs)).length = (String.utf8EncodeChar c).length +
          (toBytes cs).length := by simp [toBytes]
      rw [this, ih, String.length_utf8EncodeChar, byteSize_cons]

/-- A character of which some bytes have been read: how many it still owes,
the bounds on the next one, and the bits so far. -/
structure Unfinished where
  owed : Nat
  least : Nat
  greatest : Nat
  bits : Nat
deriving DecidableEq

/-- What the first byte of a character says. -/
inductive Lead where
  | whole (c : Char)
  | more (u : Unfinished)
  | never
deriving DecidableEq

/-- Read a byte between characters. The tighter bounds keep out longer
spellings of short characters, surrogates, and numbers past U+10FFFF. -/
def lead (byte : UInt8) : Lead :=
  let b := byte.toNat
  if b < 0x80 then .whole (Char.ofNat b)
  else if b < 0xc2 then .never
  else if b < 0xe0 then .more ⟨1, 0x80, 0xbf, b - 0xc0⟩
  else if b < 0xf0 then
    .more ⟨2, if b = 0xe0 then 0xa0 else 0x80, if b = 0xed then 0x9f else 0xbf, b - 0xe0⟩
  else if b < 0xf5 then
    .more ⟨3, if b = 0xf0 then 0x90 else 0x80, if b = 0xf4 then 0x8f else 0xbf, b - 0xf0⟩
  else .never

/-- Read one byte: what it completes, with `none` for a run of bytes that
spells no character, and what is unfinished after it. -/
def readByte (state : Option Unfinished) (byte : UInt8) :
    List (Option Char) × Option Unfinished :=
  let afresh (_ : Unit) : List (Option Char) × Option Unfinished :=
    match lead byte with
    | .whole c => ([some c], none)
    | .more u => ([], some u)
    | .never => ([none], none)
  match state with
  | none => afresh ()
  | some u =>
      if u.least ≤ byte.toNat ∧ byte.toNat ≤ u.greatest then
        let bits := u.bits * 64 + (byte.toNat - 0x80)
        if u.owed ≤ 1 then ([some (Char.ofNat bits)], none)
        else ([], some ⟨u.owed - 1, 0x80, 0xbf, bits⟩)
      else
        let (out, next) := afresh ()
        (none :: out, next)

/-- The characters that the bytes spell, with `none` for each run of bytes
that spells none. -/
def readBytes : Option Unfinished → List UInt8 → List (Option Char)
  | none, [] => []
  | some _, [] => [none]
  | state, byte :: bytes =>
      let (out, next) := readByte state byte
      out ++ readBytes next bytes

/-- The characters the bytes spell, if they spell nothing else. -/
def ofBytes? (bytes : List UInt8) : Option (List Char) :=
  (readBytes none bytes).mapM id

/-- The characters the bytes spell, with U+FFFD where they spell none. -/
def ofBytesLossy (bytes : List UInt8) : List Char :=
  (readBytes none bytes).map fun c => c.getD '\ufffd'

end Templating.Text
