import Templating.Proofs.Text.Bytes

/-!
# How characters lie in bytes

The first byte of a character tells itself apart from those that go on with it. So
where characters begin can be seen from the bytes alone. What is read from the bytes of
a text is the text, whether bytes that spell nothing are refused or replaced.
-/

namespace Templating.Text

/-- The byte goes on with a character. -/
def isContinuation (byte : UInt8) : Bool :=
  decide (0x80 ≤ byte.toNat) && decide (byte.toNat < 0xc0)

/-- A character begins with the byte of that number, or there are just so many. -/
def isBoundary (bytes : List UInt8) (n : Nat) : Bool :=
  match bytes[n]? with
  | some byte => !isContinuation byte
  | none => n == bytes.length

theorem toBytes_cons (c : Char) (cs : List Char) :
    toBytes (c :: cs) = String.utf8EncodeChar c ++ toBytes cs := rfl

theorem toNat_valid (c : Char) :
    c.val.toNat < 0xd800 ∨ 0xdfff < c.val.toNat ∧ c.val.toNat < 0x110000 :=
  c.valid

theorem toNat_byte {n : Nat} (h : n < 256) : (UInt8.ofNat n).toNat = n := by
  rw [UInt8.toNat_ofNat']
  exact Nat.mod_eq_of_lt h

/-- The byte that carries the last six bits of a number on. -/
def continuation (n : Nat) : UInt8 :=
  UInt8.ofNat (n % 0x40 + 0x80)

theorem toNat_continuation (n : Nat) : (continuation n).toNat = n % 0x40 + 0x80 :=
  toNat_byte (by omega)

theorem isContinuation_continuation (n : Nat) : isContinuation (continuation n) = true := by
  rw [isContinuation, toNat_continuation]
  simp
  omega

/-- The first byte of a character, and continuations behind it. -/
theorem utf8EncodeChar_eq (c : Char) : ∃ (first : Nat) (more : List Nat),
    String.utf8EncodeChar c = UInt8.ofNat first :: more.map continuation ∧
      (first < 0x80 ∨ 0xc0 ≤ first ∧ first < 0x100) := by
  have hvalid := toNat_valid c
  unfold String.utf8EncodeChar
  simp only
  split
  · exact ⟨_, [], rfl, by omega⟩
  · split
    · exact ⟨_, [c.val.toNat], rfl, by omega⟩
    · split
      · exact ⟨_, [c.val.toNat / 64, c.val.toNat], rfl, by omega⟩
      · exact ⟨_, [c.val.toNat / 4096, c.val.toNat / 64, c.val.toNat], rfl, by omega⟩

/-- **The first byte of a character is no continuation, and all others are.** -/
theorem utf8EncodeChar_eq_cons (c : Char) : ∃ first more, String.utf8EncodeChar c = first :: more ∧
    isContinuation first = false ∧ ∀ byte ∈ more, isContinuation byte = true := by
  obtain ⟨first, more, hbytes, hfirst⟩ := utf8EncodeChar_eq c
  refine ⟨_, _, hbytes, ?_, ?_⟩
  · rw [isContinuation, toNat_byte (by omega)]
    simp
    omega
  · intro byte hbyte
    obtain ⟨n, -, rfl⟩ := List.mem_map.mp hbyte
    exact isContinuation_continuation n

/-! ## Where characters begin -/

theorem isBoundary_zero (cs : List Char) : isBoundary (toBytes cs) 0 = true := by
  cases cs with
  | nil => rfl
  | cons c cs =>
      obtain ⟨first, more, hbytes, hfirst, -⟩ := utf8EncodeChar_eq_cons c
      simp [isBoundary, toBytes_cons, hbytes, hfirst]

/-- Within a character there is none. -/
theorem isBoundary_within (c : Char) (cs : List Char) {n : Nat} (hpos : 0 < n)
    (hn : n < c.utf8Size) : isBoundary (toBytes (c :: cs)) n = false := by
  obtain ⟨first, more, hbytes, -, hmore⟩ := utf8EncodeChar_eq_cons c
  have hsize : more.length + 1 = c.utf8Size := by
    rw [← String.length_utf8EncodeChar, hbytes]
    rfl
  obtain ⟨n, rfl⟩ : ∃ m, n = m + 1 := ⟨n - 1, by omega⟩
  have hwithin : n < more.length := by omega
  have hget : (toBytes (c :: cs))[n + 1]? = some more[n] := by
    rw [toBytes_cons, hbytes, List.cons_append, List.getElem?_cons_succ,
      List.getElem?_append_left (by omega), List.getElem?_eq_getElem (by omega)]
  rw [isBoundary, hget]
  show (!isContinuation _) = false
  rw [hmore _ (List.getElem_mem _)]
  rfl

/-- Behind a character it is as if the text began there. -/
theorem isBoundary_behind (c : Char) (cs : List Char) (n : Nat) :
    isBoundary (toBytes (c :: cs)) (c.utf8Size + n) = isBoundary (toBytes cs) n := by
  rw [isBoundary, isBoundary, toBytes_cons, ← String.length_utf8EncodeChar,
    List.getElem?_append_right (Nat.le_add_right _ _), Nat.add_sub_cancel_left,
    List.length_append]
  split
  · rfl
  · simp

/-- **The bytes show where characters begin.** -/
theorem isBoundary_iff {cs : List Char} {n : Nat} : isBoundary (toBytes cs) n = true ↔
    ∃ front back, cs = front ++ back ∧ n = byteSize front := by
  induction cs generalizing n with
  | nil =>
      constructor
      · intro h
        refine ⟨[], [], rfl, ?_⟩
        simpa [isBoundary, toBytes] using h
      · rintro ⟨front, back, h, rfl⟩
        obtain ⟨rfl, rfl⟩ := List.append_eq_nil_iff.mp h.symm
        rfl
  | cons c cs ih =>
      constructor
      · intro h
        by_cases hzero : n = 0
        · exact ⟨[], c :: cs, rfl, hzero⟩
        · by_cases hwithin : n < c.utf8Size
          · rw [isBoundary_within c cs (by omega) hwithin] at h
            cases h
          · obtain ⟨m, rfl⟩ : ∃ m, n = c.utf8Size + m := ⟨n - c.utf8Size, by omega⟩
            rw [isBoundary_behind] at h
            obtain ⟨front, back, rfl, rfl⟩ := ih.mp h
            exact ⟨c :: front, back, rfl, rfl⟩
      · rintro ⟨front, back, hcs, rfl⟩
        cases front with
        | nil => exact isBoundary_zero _
        | cons d front =>
            obtain ⟨rfl, rfl⟩ := List.cons.inj hcs
            rw [byteSize_cons, isBoundary_behind]
            exact ih.mpr ⟨front, back, rfl, rfl⟩

/-- Behind bytes that are left out, if there are any, fewer characters are left. -/
theorem length_lt_of_skip? {n : Nat} {cs rest : List Char} (hn : 0 < n)
    (h : skip? n cs = some rest) : rest.length < cs.length := by
  obtain ⟨front, rfl, rfl⟩ := eq_of_skip? h
  have hfront : front ≠ [] := by
    rintro rfl
    exact absurd hn (Nat.lt_irrefl 0)
  have hpos := List.length_pos_of_ne_nil hfront
  rw [List.length_append]
  omega

/-! ## Searching bytes -/

variable {p : Char → Bool}

/-- A text without characters of an ASCII sort has no such bytes. -/
theorem findIdx?_octets_eq_none (hp : AsciiSort p) {cs : List Char} (h : ∀ c ∈ cs, p c = false) :
    (octets cs).findIdx? p = none := by
  induction cs with
  | nil => rfl
  | cons c cs ih =>
      obtain ⟨hc, hcs⟩ := List.forall_mem_cons.mp h
      rw [octets_cons, List.findIdx?_append, ih hcs]
      have hnone : (octets [c]).findIdx? p = none := by
        rw [List.findIdx?_eq_none_iff]
        intro x hx
        rw [hp.octets c x hx, hc]
      rw [hnone]
      rfl

/-- **The first byte of an ASCII sort stands where the first character of the sort does.** -/
theorem findIdx?_octets_eq_some (hp : AsciiSort p) {front : List Char}
    (h : ∀ c ∈ front, p c = false) {c : Char} (hc : p c = true) (back : List Char) :
    (octets (front ++ c :: back)).findIdx? p = some (byteSize front) := by
  obtain ⟨x, xs, hxs, hx⟩ := octets_first c
  have hfirst : (x :: (xs ++ octets back)).findIdx? p = some 0 := by
    rw [List.findIdx?_cons, hx.same hp, if_pos hc]
  rw [octets_append, octets_cons, hxs, List.cons_append, List.findIdx?_append,
    findIdx?_octets_eq_none hp h, hfirst, length_octets, Option.none_or]
  simp

/-! ## Reading back -/

theorem readBytes_whole {byte : UInt8} {c : Char} (h : lead byte = .whole c)
    (bytes : List UInt8) : readBytes none (byte :: bytes) = some c :: readBytes none bytes := by
  simp [readBytes, readByte, h]

theorem readBytes_more {byte : UInt8} {u : Unfinished} (h : lead byte = .more u)
    (bytes : List UInt8) : readBytes none (byte :: bytes) = readBytes (some u) bytes := by
  simp [readBytes, readByte, h]

/-- One of the continuations that a character owes, but not the last one. -/
theorem readBytes_continuation {owed least greatest : Nat} (howed : 1 < owed) (bits n : Nat)
    (hleast : least ≤ n % 0x40 + 0x80) (hgreatest : n % 0x40 + 0x80 ≤ greatest)
    (bytes : List UInt8) :
    readBytes (some ⟨owed, least, greatest, bits⟩) (continuation n :: bytes) =
      readBytes (some ⟨owed - 1, 0x80, 0xbf, bits * 64 + n % 0x40⟩) bytes := by
  have hread : readByte (some ⟨owed, least, greatest, bits⟩) (continuation n) =
      ([], some ⟨owed - 1, 0x80, 0xbf, bits * 64 + n % 0x40⟩) := by
    rw [readByte]
    simp only [toNat_continuation]
    rw [if_pos ⟨hleast, hgreatest⟩, if_neg (by omega), Nat.add_sub_cancel]
  rw [readBytes, hread]
  rfl

/-- The last continuation that a character owes. -/
theorem readBytes_last {least greatest : Nat} (bits n : Nat) (hleast : least ≤ n % 0x40 + 0x80)
    (hgreatest : n % 0x40 + 0x80 ≤ greatest) (bytes : List UInt8) :
    readBytes (some ⟨1, least, greatest, bits⟩) (continuation n :: bytes) =
      some (Char.ofNat (bits * 64 + n % 0x40)) :: readBytes none bytes := by
  have hread : readByte (some ⟨1, least, greatest, bits⟩) (continuation n) =
      ([some (Char.ofNat (bits * 64 + n % 0x40))], none) := by
    rw [readByte]
    simp only [toNat_continuation]
    rw [if_pos ⟨hleast, hgreatest⟩, if_pos (Nat.le_refl 1), Nat.add_sub_cancel]
  rw [readBytes, hread]
  rfl

/-- **A character is read from its bytes.** -/
theorem readBytes_utf8EncodeChar (c : Char) (bytes : List UInt8) :
    readBytes none (String.utf8EncodeChar c ++ bytes) = some c :: readBytes none bytes := by
  have hvalid := toNat_valid c
  have hc {n : Nat} (hn : n = c.val.toNat) : Char.ofNat n = c := by
    rw [hn]
    exact Char.ofNat_toNat c
  unfold String.utf8EncodeChar
  simp only
  generalize c.val.toNat = v at hvalid hc
  split
  · apply readBytes_whole
    rw [lead, toNat_byte (by omega), if_pos (by omega), hc rfl]
  · split
    · have hlead : lead (UInt8.ofNat (v / 64 % 0x20 + 0xc0)) =
          .more ⟨1, 0x80, 0xbf, v / 64 % 0x20⟩ := by
        rw [lead, toNat_byte (by omega), if_neg (by omega), if_neg (by omega), if_pos (by omega),
          Nat.add_sub_cancel]
      have hlast := readBytes_last (v / 64 % 0x20) v (show 0x80 ≤ _ by omega)
        (show _ ≤ 0xbf by omega) bytes
      rw [hc (by omega)] at hlast
      exact (readBytes_more hlead _).trans hlast
    · split
      · -- The bounds on the second byte keep out longer spellings and surrogates.
        obtain ⟨least, greatest, hlead, hleast, hgreatest⟩ : ∃ least greatest,
            lead (UInt8.ofNat (v / 4096 % 0x10 + 0xe0)) =
              .more ⟨2, least, greatest, v / 4096 % 0x10⟩ ∧
            least ≤ v / 64 % 0x40 + 0x80 ∧ v / 64 % 0x40 + 0x80 ≤ greatest := by
          rw [lead, toNat_byte (by omega), if_neg (by omega), if_neg (by omega),
            if_neg (by omega), if_pos (by omega), Nat.add_sub_cancel]
          refine ⟨_, _, rfl, ?_, ?_⟩
          · split <;> omega
          · split <;> omega
        have hsecond := readBytes_continuation (Nat.lt_succ_self 1) (v / 4096 % 0x10) (v / 64)
          hleast hgreatest (continuation v :: bytes)
        have hlast := readBytes_last (v / 4096 % 0x10 * 64 + v / 64 % 0x40) v
          (show 0x80 ≤ _ by omega) (show _ ≤ 0xbf by omega) bytes
        rw [hc (by omega)] at hlast
        exact (readBytes_more hlead _).trans (hsecond.trans hlast)
      · obtain ⟨least, greatest, hlead, hleast, hgreatest⟩ : ∃ least greatest,
            lead (UInt8.ofNat (v / 262144 % 0x08 + 0xf0)) =
              .more ⟨3, least, greatest, v / 262144 % 0x08⟩ ∧
            least ≤ v / 4096 % 0x40 + 0x80 ∧ v / 4096 % 0x40 + 0x80 ≤ greatest := by
          rw [lead, toNat_byte (by omega), if_neg (by omega), if_neg (by omega),
            if_neg (by omega), if_neg (by omega), if_pos (by omega), Nat.add_sub_cancel]
          refine ⟨_, _, rfl, ?_, ?_⟩
          · split <;> omega
          · split <;> omega
        have hsecond := readBytes_continuation (show 1 < 3 by omega) (v / 262144 % 0x08)
          (v / 4096) hleast hgreatest (continuation (v / 64) :: continuation v :: bytes)
        have hthird := readBytes_continuation (Nat.lt_succ_self 1)
          (v / 262144 % 0x08 * 64 + v / 4096 % 0x40) (v / 64) (show 0x80 ≤ _ by omega)
          (show _ ≤ 0xbf by omega) (continuation v :: bytes)
        have hlast := readBytes_last
          ((v / 262144 % 0x08 * 64 + v / 4096 % 0x40) * 64 + v / 64 % 0x40) v
          (show 0x80 ≤ _ by omega) (show _ ≤ 0xbf by omega) bytes
        rw [hc (by omega)] at hlast
        exact (readBytes_more hlead _).trans (hsecond.trans (hthird.trans hlast))

/-- **The bytes of a text spell it.** -/
theorem readBytes_toBytes (cs : List Char) : readBytes none (toBytes cs) = cs.map some := by
  induction cs with
  | nil => rfl
  | cons c cs ih => rw [toBytes_cons, readBytes_utf8EncodeChar, ih, List.map_cons]

theorem ofBytesLossy_toBytes (cs : List Char) : ofBytesLossy (toBytes cs) = cs := by
  rw [ofBytesLossy, readBytes_toBytes, List.map_map]
  exact List.map_id cs

/-- Bytes that spell a text are read as that text, and nothing is replaced. -/
theorem ofBytesLossy_of_ofBytes? {bytes : List UInt8} {cs : List Char}
    (h : ofBytes? bytes = some cs) : ofBytesLossy bytes = cs := by
  have hread {read : List (Option Char)} {cs : List Char} (h : read.mapM id = some cs) :
      read = cs.map some := by
    induction read generalizing cs with
    | nil =>
        obtain rfl : [] = cs := by simpa using h
        rfl
    | cons c? read ih =>
        simp only [List.mapM_cons, id_eq, Option.bind_eq_bind, Option.bind_eq_some_iff,
          Option.pure_def, Option.some.injEq] at h
        obtain ⟨c, rfl, cs', hcs', rfl⟩ := h
        rw [ih hcs', List.map_cons]
  rw [ofBytesLossy, hread h, List.map_map]
  exact List.map_id cs

end Templating.Text
