import Mathlib.Data.Option.Basic
import Templating.Markup.Output
import Templating.Proofs.Markup.Escape
import Templating.Proofs.Text.Encoding

/-!
# Outputs

An output for markup finds the special characters of a value by searching its bytes,
and hands the value on in stretches: up to a special character as it is, then the
reference for that, and so on. What the output behind it takes are the chunks of the
escaped value. An output that collects what it takes has in the end, one behind the
other, all that was written: static text as it is, values escaped, and bytes read as text.
-/

namespace Templating.Markup

open Text (AsciiSort IsAscii byteSize first? octets skip? toBytes)

/-! ## Searching -/

/-- Searches for the place of one of two or three bytes. -/
structure Searches where
  two : UInt8 → UInt8 → List UInt8 → Option Nat
  three : UInt8 → UInt8 → UInt8 → List UInt8 → Option Nat

namespace Searches

/-- Of all places, the searches find the first. -/
structure First (search : Searches) : Prop where
  two : ∀ a b bytes, search.two a b bytes = bytes.findIdx? fun x => x == a || x == b
  three : ∀ a b c bytes,
    search.three a b c bytes = bytes.findIdx? fun x => x == a || x == b || x == c

/-- The place of the first special character. For five characters it takes two searches. -/
def next (search : Searches) (bytes : List UInt8) : Option Nat :=
  (search.three '&'.toUInt8 '<'.toUInt8 '>'.toUInt8 bytes).merge min
    (search.two '"'.toUInt8 '\''.toUInt8 bytes)

end Searches

theorem merge_findIdx? {α : Type} (p q : α → Bool) (xs : List α) :
    (xs.findIdx? p).merge min (xs.findIdx? q) = xs.findIdx? fun x => p x || q x := by
  induction xs with
  | nil => rfl
  | cons x xs ih =>
      rw [List.findIdx?_cons, List.findIdx?_cons, List.findIdx?_cons, ← ih]
      cases p x with
      | true =>
          cases q x with
          | true => rfl
          | false => cases xs.findIdx? q <;> simp
      | false =>
          cases q x with
          | true => cases xs.findIdx? p <;> simp
          | false =>
              cases xs.findIdx? p with
              | none => cases xs.findIdx? q <;> rfl
              | some i =>
                  cases xs.findIdx? q with
                  | none => rfl
                  | some j => simp

theorem asciiSort_isSpecial : AsciiSort isSpecial := by
  apply AsciiSort.of_false
  intro c hc
  obtain ⟨r, hr⟩ := Option.isSome_iff_exists.mp hc
  have hreferences : ∀ x ∈ references, IsAscii x.1 := by decide
  exact hreferences _ (mem_references hr)

/-- The special characters as bytes. -/
theorem isSpecial_byte (x : UInt8) :
    ((x == '&'.toUInt8 || x == '<'.toUInt8 || x == '>'.toUInt8) ||
      (x == '"'.toUInt8 || x == '\''.toUInt8)) = isSpecial (Char.ofNat x.toNat) := by
  have hbytes : ∀ n < 256, ((UInt8.ofNat n == '&'.toUInt8 || UInt8.ofNat n == '<'.toUInt8 ||
      UInt8.ofNat n == '>'.toUInt8) || (UInt8.ofNat n == '"'.toUInt8 ||
        UInt8.ofNat n == '\''.toUInt8)) = isSpecial (Char.ofNat n) := by
    decide +kernel
  have h := hbytes x.toNat x.toNat_lt
  rwa [UInt8.ofNat_toNat] at h

/-- The searches go for the special characters of a text. -/
theorem Searches.First.next {search : Searches} (h : search.First) (cs : List Char) :
    search.next (toBytes cs) = (octets cs).findIdx? isSpecial := by
  rw [octets, List.findIdx?_map, Searches.next, h.two, h.three, merge_findIdx?]
  congr 1
  funext x
  exact isSpecial_byte x

/-- The reference for the special character that a byte stands for. -/
def referenceOf (byte : UInt8) : String :=
  if byte = '&'.toUInt8 then "&amp;"
  else if byte = '<'.toUInt8 then "&lt;"
  else if byte = '>'.toUInt8 then "&gt;"
  else if byte = '"'.toUInt8 then "&#34;"
  else "&#39;"

theorem toBytes_special {c : Char} {r : String} (h : reference? c = some r) :
    ∃ byte, toBytes [c] = [byte] ∧ referenceOf byte = r := by
  have hreferences : ∀ x ∈ references, toBytes [x.1] = [x.1.toUInt8] ∧
      referenceOf x.1.toUInt8 = x.2 := by
    decide
  exact ⟨c.toUInt8, hreferences _ (mem_references h)⟩

/-! ## Outputs -/

/-- What takes the writes of a rendered template. `σ` is what it has taken so far, or
`none` if a text was to be cut within a character. -/
structure Sink (σ : Type) where
  raw : String → σ → Option σ
  escaped : String → σ → Option σ
  bytes : List UInt8 → σ → Option σ

namespace Sink

variable {σ : Type}

def take (sink : Sink σ) (s : σ) : Write → Option σ
  | .raw text => sink.raw text s
  | .escaped text => sink.escaped text s
  | .bytes content => sink.bytes content s

/-- Take texts as they are, one after the other. -/
def rawAll (sink : Sink σ) (s : σ) (texts : List String) : Option σ :=
  texts.foldlM (fun s text => sink.raw text s) s

/-- Collects what it takes. Bytes that are no text are replaced only if there are any. -/
def collector : Sink String where
  raw text s := some (s ++ text)
  escaped text s := some (s ++ text)
  bytes content s :=
    match Text.ofBytes? content with
    | some cs => some (s ++ String.ofList cs)
    | none => some (s ++ String.ofList (Text.ofBytesLossy content))

/-- Hand on the first bytes of a value as they are, if there are any. -/
def writeFirst (sink : Sink σ) (count : Nat) (value : List Char) (s : σ) : Option σ :=
  if count = 0 then some s
  else (first? count value).bind fun run => sink.raw (String.ofList run) s

/-- Hand on a value with its special characters replaced: what stands before the first,
its reference, and then what is left. -/
def writeEscaped (search : Searches) (sink : Sink σ) (value : List Char) (s : σ) : Option σ :=
  match search.next (toBytes value) with
  | none => if value = [] then some s else sink.raw (String.ofList value) s
  | some place =>
      (sink.writeFirst place value s).bind fun s =>
        (toBytes value)[place]?.bind fun byte =>
          (sink.raw (referenceOf byte) s).bind fun s =>
            match _ : skip? (place + 1) value with
            | some rest => writeEscaped search sink rest s
            | none => none
termination_by value.length
decreasing_by
  rename_i hskip
  exact Text.length_lt_of_skip? (Nat.succ_pos _) hskip

/-- The output for markup before another one: values are escaped for that. -/
def escaping (search : Searches) (sink : Sink σ) : Sink σ where
  raw := sink.raw
  escaped text s := writeEscaped search sink text.toList s
  bytes := sink.bytes

variable {search : Searches}

theorem rawAll_append (sink : Sink σ) (s : σ) (xs ys : List String) :
    sink.rawAll s (xs ++ ys) = (sink.rawAll s xs).bind (sink.rawAll · ys) :=
  List.foldlM_append

theorem rawAll_singleton (sink : Sink σ) (s : σ) (text : String) :
    sink.rawAll s [text] = sink.raw text s :=
  bind_pure _

theorem rawAll_runChunk (sink : Sink σ) (s : σ) (run : List Char) :
    sink.rawAll s (runChunk run) =
      if run = [] then some s else sink.raw (String.ofList run.reverse) s := by
  cases run with
  | nil => rfl
  | cons c run =>
      rw [runChunk, if_neg (by simp), if_neg (by simp), rawAll_singleton]

/-- A value without special characters is handed on as it is. -/
theorem writeEscaped_ordinary (h : search.First) (sink : Sink σ) {cs : List Char}
    (hcs : ∀ c ∈ cs, reference? c = none) (s : σ) :
    writeEscaped search sink cs s = sink.rawAll s (chunksAfter [] cs) := by
  have hordinary : ∀ c ∈ cs, isSpecial c = false := by
    intro c hc
    rw [isSpecial, hcs c hc]
    rfl
  have hchunks : chunksAfter [] cs = runChunk cs.reverse := by
    have happend := chunksAfter_append hcs [] []
    rwa [List.append_nil, List.append_nil] at happend
  rw [writeEscaped, h.next, Text.findIdx?_octets_eq_none asciiSort_isSpecial hordinary, hchunks,
    rawAll_runChunk, List.reverse_reverse]
  simp

theorem writeFirst_append (sink : Sink σ) (front back : List Char) (s : σ) :
    sink.writeFirst (byteSize front) (front ++ back) s =
      sink.rawAll s (runChunk front.reverse) := by
  rw [writeFirst, rawAll_runChunk, List.reverse_reverse, Text.first?_append]
  cases front with
  | nil => rfl
  | cons c front =>
      have hpos := c.utf8Size_pos
      rw [if_neg (by rw [Text.byteSize_cons]; omega), if_neg (by simp)]
      rfl

theorem writeEscaped_found {value rest : List Char} {place : Nat} {byte : UInt8}
    (hnext : search.next (toBytes value) = some place)
    (hbyte : (toBytes value)[place]? = some byte) (hrest : skip? (place + 1) value = some rest)
    (sink : Sink σ) (s : σ) :
    writeEscaped search sink value s =
      (sink.writeFirst place value s).bind fun s =>
        (sink.raw (referenceOf byte) s).bind (writeEscaped search sink rest) := by
  rw [writeEscaped, hnext]
  simp only [hbyte, Option.bind_some]
  congr 1
  funext s
  congr 1
  funext s
  split
  · rename_i found hfound
    rw [hrest] at hfound
    rw [Option.some.inj hfound]
  · rename_i hnone
    rw [hrest] at hnone
    cases hnone

/-- Up to the first special character, the value is handed on as it is; then comes the
reference, and then what is left. -/
theorem writeEscaped_special (h : search.First) (sink : Sink σ) {front : List Char}
    (hfront : ∀ c ∈ front, reference? c = none) {c : Char} {r : String}
    (hc : reference? c = some r) (back : List Char) (s : σ) :
    writeEscaped search sink (front ++ c :: back) s =
      (sink.rawAll s (runChunk front.reverse ++ [r])).bind (writeEscaped search sink back) := by
  obtain ⟨byte, hbyte, hr⟩ := toBytes_special hc
  have hspecial : isSpecial c = true := by
    rw [isSpecial, hc]
    rfl
  have hordinary : ∀ d ∈ front, isSpecial d = false := by
    intro d hd
    rw [isSpecial, hfront d hd]
    rfl
  have hnext : search.next (toBytes (front ++ c :: back)) = some (byteSize front) := by
    rw [h.next, Text.findIdx?_octets_eq_some asciiSort_isSpecial hordinary hspecial]
  have hsplit : front ++ c :: back = (front ++ [c]) ++ back := by simp
  have hsize : byteSize (front ++ [c]) = byteSize front + 1 := by
    rw [Text.byteSize_append, ← Text.length_toBytes [c], hbyte]
    rfl
  have hskip : skip? (byteSize front + 1) (front ++ c :: back) = some back := by
    rw [← hsize, hsplit, Text.skip?_append]
  have hget : (toBytes (front ++ c :: back))[byteSize front]? = some byte := by
    rw [hsplit, Text.toBytes_append, Text.toBytes_append, hbyte, ← Text.length_toBytes,
      List.append_assoc, List.getElem?_append_right (Nat.le_refl _), Nat.sub_self]
    rfl
  rw [writeEscaped_found hnext hget hskip, writeFirst_append, hr, rawAll_append,
    Option.bind_assoc]
  congr 1
  funext s
  rw [rawAll_singleton]

/-- **The output behind takes the chunks of the escaped value.** -/
theorem writeEscaped_eq (h : search.First) (sink : Sink σ) (cs : List Char) (s : σ) :
    writeEscaped search sink cs s = sink.rawAll s (chunksAfter [] cs) := by
  induction hlength : cs.length using Nat.strongRecOn generalizing cs s with
  | ind length ih =>
      have hordinary {c : Char} (hc : ¬isSpecial c = true) : reference? c = none :=
        Option.not_isSome_iff_eq_none.mp hc
      cases hfind : cs.find? isSpecial with
      | none =>
          apply writeEscaped_ordinary h
          intro c hc
          exact hordinary (List.find?_eq_none.mp hfind c hc)
      | some c =>
          obtain ⟨hspecial, front, back, rfl, hfront⟩ := List.find?_eq_some_iff_append.mp hfind
          obtain ⟨r, hr⟩ := Option.isSome_iff_exists.mp hspecial
          have hfront' : ∀ d ∈ front, reference? d = none := by
            intro d hd
            apply hordinary
            simpa using hfront d hd
          have hchunks : chunksAfter [] (front ++ c :: back) =
              (runChunk front.reverse ++ [r]) ++ chunksAfter [] back := by
            rw [chunksAfter_append hfront', chunksAfter, hr]
            simp
          have hback : back.length < length := by
            rw [← hlength, List.length_append, List.length_cons]
            omega
          rw [writeEscaped_special h sink hfront' hr, hchunks,
            rawAll_append sink s (runChunk front.reverse ++ [r]) (chunksAfter [] back)]
          congr 1
          funext s
          exact ih back.length hback back s rfl

theorem rawAll_collector (s : String) (texts : List String) :
    collector.rawAll s texts = some (s ++ String.join texts) := by
  induction texts generalizing s with
  | nil => simp [rawAll]
  | cons text texts ih =>
      rw [rawAll, List.foldlM_cons, String.join_cons, ← String.append_assoc]
      exact ih (s ++ text)

end Sink

/-! ## What has been written -/

/-- What a write adds to markup. -/
def Write.written : Write → String
  | raw text => text
  | escaped text => escape text
  | bytes content => bytesText content

theorem join_markupChunks (w : Write) : String.join w.markupChunks = w.written := by
  cases w with
  | raw text => simp [Write.markupChunks, Write.written]
  | escaped text => exact join_escapeChunks text
  | bytes content => simp [Write.markupChunks, Write.written]

theorem markupText_eq (writes : List Write) :
    markupText writes = String.join (writes.map Write.written) := by
  rw [markupText]
  induction writes with
  | nil => rfl
  | cons w writes ih =>
      rw [List.flatMap_cons, String.join_append, join_markupChunks, ih, List.map_cons,
        String.join_cons]

/-- A collecting output for markup takes a write. -/
theorem take_collector {search : Searches} (h : search.First) (s : String) (w : Write) :
    ((Sink.collector).escaping search).take s w = some (s ++ w.written) := by
  cases w with
  | raw text => rfl
  | escaped text =>
      show Sink.writeEscaped search Sink.collector text.toList s = _
      rw [Sink.writeEscaped_eq h, Sink.rawAll_collector]
      exact congrArg (fun t => some (s ++ t)) (join_escapeChunks text)
  | bytes content =>
      show Sink.collector.bytes content s = some (s ++ Write.bytesText content)
      unfold Sink.collector Write.bytesText
      simp only
      split
      · rename_i cs hcs
        rw [Text.ofBytesLossy_of_ofBytes? hcs]
      · rfl

/-- **Escaping for markup is escaping character by character.** If the searches find the
first of the bytes that they are asked for, any output behind takes the chunks of the
escaped value, one after the other, and none of them is empty; together they are the
value with its special characters replaced by their references. So there is no special
character in it but the ampersand, reading the references gives the value back, and
values that are joined can be escaped one by one. What a collecting output comes to have
is static text as it is, values escaped, and bytes as the text that they spell, in the
order of the writes. -/
theorem escaped_exact (search : Searches) (h : search.First) (v w : String)
    (writes : List Write) (s : String) :
    (∀ {σ : Type} (sink : Sink σ) (t : σ),
        (sink.escaping search).escaped v t = sink.rawAll t (escapeChunks v)) ∧
      (∀ chunk ∈ escapeChunks v, chunk ≠ "") ∧
      String.join (escapeChunks v) = String.ofList (v.toList.flatMap escapeChar) ∧
      (∀ c ∈ (escape v).toList, c ∉ ['<', '>', '"', '\'']) ∧
      readReferences (escape v).toList = v.toList ∧
      escape (v ++ w) = escape v ++ escape w ∧
      writes.foldlM (Sink.collector.escaping search).take s =
        some (s ++ String.join (writes.map Write.written)) ∧
      String.join (writes.map Write.written) = markupText writes ∧
      Write.bytesText (toBytes v.toList) = v := by
  refine ⟨fun sink t => Sink.writeEscaped_eq h sink v.toList t, chunksAfter_ne_empty [] v.toList,
    join_escapeChunks v, ?_, readReferences_escape v, escape_append v w, ?_,
    (markupText_eq writes).symm, ?_⟩
  · intro c hc hmem
    have hspecial : (['<', '>', '"', '\''].all fun c => isSpecial c && c != '&') = true := by
      decide
    obtain ⟨hc', hne⟩ := Bool.and_eq_true_iff.mp (List.all_eq_true.mp hspecial c hmem)
    exact bne_iff_ne.mp hne (special_mem_escape hc' hc)
  · induction writes generalizing s with
    | nil => simp
    | cons w writes ih =>
        rw [List.foldlM_cons, take_collector h, List.map_cons, String.join_cons,
          ← String.append_assoc]
        exact ih (s ++ w.written)
  · rw [Write.bytesText, Text.ofBytesLossy_toBytes, String.ofList_toList]

/-- Searches that go through the bytes from the front. -/
def searches : Searches where
  two a b bytes := bytes.findIdx? fun x => x == a || x == b
  three a b c bytes := bytes.findIdx? fun x => x == a || x == b || x == c

/-- A value with wide characters before and between special ones. -/
theorem escaped_exact_wide : searches.First ∧
    (∀ t : List String, (Sink.escaping searches ⟨fun text t => some (t ++ [text]),
      fun text t => some (t ++ [text]), fun _ t => some t⟩).escaped "é<\"ß" t =
        some (t ++ ["é", "&lt;", "&#34;", "ß"])) ∧
    readReferences (escape "é<\"ß").toList = "é<\"ß".toList := by
  have hfirst : searches.First := ⟨fun _ _ _ => rfl, fun _ _ _ _ => rfl⟩
  have hexact := escaped_exact searches hfirst "é<\"ß" "" [] ""
  refine ⟨hfirst, ?_, hexact.2.2.2.2.1⟩
  intro t
  rw [hexact.1, show escapeChunks "é<\"ß" = ["é", "&lt;", "&#34;", "ß"] by decide +kernel]
  simp [Sink.rawAll]

end Templating.Markup
