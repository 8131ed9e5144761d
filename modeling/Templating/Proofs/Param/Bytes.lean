import Templating.Param.Declaration
import Templating.Proofs.Text.Bytes

/-!
# Reading a declaration by bytes

A declaration is read by a few byte offsets: where the default value begins, where
the name starts and ends, and where the type starts. The reader here checks that
every byte it looks at is there and that it cuts between characters. It never goes
wrong, and it reads what `Param.ofDeclaration` reads.
-/

namespace Templating.Param

open Text (octets cut? byteBefore? bytesBetween? onOver? byteSize IsAscii)

/-- The offset of the first `=` outside angle brackets, looked for from the byte
`i` on. -/
def boundary? (bytes : List Char) : Nat → Nat → List Char → Option (Option Nat)
  | _, _, [] => some none
  | i, depth, c :: cs =>
      if c = '<' then boundary? bytes (i + 1) (depth + 1) cs
      else if c = '>' then
        (byteBefore? bytes i).bind fun previous? =>
          boundary? bytes (i + 1) (if previous? = some '-' then depth else depth - 1) cs
      else if c = '=' ∧ depth = 0 then some (some i)
      else boundary? bytes (i + 1) depth cs

/-- Go over the blanks between two offsets. -/
def skipBlanks? (bytes : List Char) (start stop : Nat) : Option Nat :=
  onOver? Text.isAsciiBlank bytes start (stop - start)

/-- The name lies between the blanks at the beginning and the next blank or colon. -/
def nameRange? (bytes : List Char) (stop : Nat) : Option (Nat × Nat) := do
  let start ← skipBlanks? bytes 0 stop
  let body ← bytesBetween? bytes start stop
  some (start, start + (body.takeWhile fun c => !endsName c).length)

/-- The type starts behind the blanks after the name, a colon if there is one, and
the blanks after it. -/
def typeStart? (bytes : List Char) (nameStop stop : Nat) : Option Nat := do
  let start ← skipBlanks? bytes nameStop stop
  if bytes[start]? = some ':' then skipBlanks? bytes (start + 1) stop else some start

/-- Read one declaration, if nothing goes wrong. -/
def ofDeclaration? (text : String) : Option (Except DeclarationFault Param) := do
  let source := text.toList
  let bytes := octets source
  let boundary ← boundary? bytes 0 0 bytes
  let stop := boundary.getD bytes.length
  let head ← cut? source 0 stop
  let (nameStart, nameStop) ← nameRange? bytes stop
  let name ← cut? source nameStart nameStop
  let name := String.ofList (dropEllipses name.text.toList)
  if name = "" then some (.error .missingName)
  else do
    let typeStart ← typeStart? bytes nameStop stop
    let type ← cut? source typeStart stop
    let type := String.ofList (Text.trim (dropEllipses type.text.toList))
    match boundary with
    | none => some (.ok ⟨name, type, none, hasEllipsis head.text.toList⟩)
    | some equals => do
        let expression ← cut? source (equals + 1) bytes.length
        match Text.trim expression.text.toList with
        | [] => some (.error (.emptyDefault name))
        | trimmed =>
            some (.ok ⟨name, type, some (String.ofList trimmed), hasEllipsis head.text.toList⟩)

/-! ## Where the default value begins -/

section Boundary

variable {bytes : List Char} {i depth : Nat}

theorem boundary?_wide {xs : List Char} (hxs : ∀ x ∈ xs, ¬ IsAscii x) (ys : List Char) :
    boundary? bytes i depth (xs ++ ys) = boundary? bytes (i + xs.length) depth ys := by
  induction xs generalizing i with
  | nil => rfl
  | cons x xs ih =>
      have hx : ¬ IsAscii x := hxs x (by simp)
      have hne (a : Char) (ha : IsAscii a) : x ≠ a := by
        rintro rfl
        exact hx ha
      rw [List.cons_append, boundary?, if_neg (hne '<' (by decide)), if_neg (hne '>' (by decide)),
        if_neg (fun h => hne '=' (by decide) h.1), ih fun y hy => hxs y (by simp [hy])]
      congr 1
      simp only [List.length_cons]
      omega

/-- The number of open brackets behind a character. -/
def depthBehind (depth : Nat) (previous : Option Char) (c : Char) : Nat :=
  if c = '<' then depth + 1
  else if c = '>' ∧ previous ≠ some '-' then depth - 1
  else depth

theorem boundary?_cons {x? previous : Option Char} (hbefore : byteBefore? bytes i = some x?)
    (hx : Option.Rel Text.Twin x? previous) (c : Char) (ys : List Char) :
    boundary? bytes i depth (c :: ys) =
      if c = '=' ∧ depth = 0 then some (some i)
      else boundary? bytes (i + 1) (depthBehind depth previous c) ys := by
  have hdash := Text.rel_twin_iff hx (show IsAscii '-' by decide)
  rw [boundary?, hbefore, Option.bind_some]
  by_cases hopen : c = '<'
  · simp [hopen, depthBehind]
  · by_cases hclose : c = '>'
    · by_cases hprevious : previous = some '-'
      · simp [hclose, hprevious, hdash.mpr hprevious, depthBehind]
      · simp [hclose, hprevious, mt hdash.mp hprevious, depthBehind]
    · simp [hopen, hclose, depthBehind]

theorem splitDefault_cons (previous : Option Char) (c : Char) (cs : List Char) :
    splitDefault depth previous (c :: cs) =
      if c = '=' ∧ depth = 0 then ([], some cs)
      else
        let rest := splitDefault (depthBehind depth previous c) (some c) cs
        (c :: rest.1, rest.2) := by
  rw [splitDefault]
  rfl

/-- **The bytes and the characters give the same place.** -/
theorem boundary?_octets (before cs : List Char) (depth : Nat) :
    boundary? (octets (before.reverse ++ cs)) (byteSize before) depth (octets cs) =
      some ((splitDefault depth before.head? cs).2.map fun _ =>
        byteSize before + byteSize (splitDefault depth before.head? cs).1) := by
  induction cs generalizing before depth with
  | nil => rfl
  | cons c cs ih =>
      have hsource : before.reverse ++ c :: cs = (c :: before).reverse ++ cs := by simp
      have hrest := ih (c :: before) (depthBehind depth before.head? c)
      rw [splitDefault_cons]
      by_cases hc : IsAscii c
      · obtain ⟨x?, hbefore, hx⟩ := Text.byteBefore?_octets before (c :: cs)
        rw [Text.octets_cons c cs, Text.octets_ascii hc, List.singleton_append,
          boundary?_cons hbefore hx]
        split
        · rfl
        · rw [Text.byteSize_cons, Text.utf8Size_ascii hc, Nat.add_comm 1] at hrest
          rw [hsource, hrest, Text.byteSize_cons, Text.utf8Size_ascii hc]
          simp [Nat.add_assoc]
      · have hne (a : Char) (ha : IsAscii a) : c ≠ a := by
          rintro rfl
          exact hc ha
        have hdepth : depthBehind depth before.head? c = depth := by
          unfold depthBehind
          rw [if_neg (hne '<' (by decide)), if_neg (fun h => hne '>' (by decide) h.1)]
        rw [hdepth, Text.byteSize_cons, Nat.add_comm] at hrest
        rw [Text.octets_cons c cs, boundary?_wide (Text.octets_wide hc), Text.length_octets,
          if_neg (fun h => hne '=' (by decide) h.1), hdepth, hsource]
        show boundary? _ (byteSize before + c.utf8Size) _ _ = _
        rw [hrest]
        simp [Nat.add_assoc]

theorem splitDefault_source (depth : Nat) (previous : Option Char) (cs : List Char) : cs =
    (splitDefault depth previous cs).1 ++
      ((splitDefault depth previous cs).2.map ('=' :: ·)).getD [] := by
  induction cs generalizing depth previous with
  | nil => rfl
  | cons c cs ih =>
      rw [splitDefault_cons]
      split
      · rename_i h
        rw [h.1]
        rfl
      · rw [List.cons_append]
        exact congrArg (c :: ·) (ih _ _)

end Boundary

/-! ## The name and the type -/

theorem asciiSort_endsName : Text.AsciiSort endsName :=
  Text.asciiSort_isAsciiBlank.or (Text.asciiSort_beq (by decide))

theorem skipBlanks?_octets (front cs back : List Char) :
    skipBlanks? (octets (front ++ cs ++ back)) (byteSize front) (byteSize (front ++ cs)) =
      some (byteSize (front ++ cs.takeWhile Text.isAsciiBlank)) := by
  unfold skipBlanks?
  rw [Text.byteSize_append front cs, Nat.add_sub_cancel_left,
    Text.onOver?_octets Text.asciiSort_isAsciiBlank]

theorem nameRange?_octets (head tail : List Char) : ∃ blanks name rest,
    head = blanks ++ name ++ rest ∧
      name = ((head.dropWhile Text.isAsciiBlank).takeWhile fun c => !endsName c) ∧
      rest = ((head.dropWhile Text.isAsciiBlank).dropWhile fun c => !endsName c) ∧
      nameRange? (octets (head ++ tail)) (byteSize head) =
        some (byteSize blanks, byteSize (blanks ++ name)) := by
  have hskip := skipBlanks?_octets [] head tail
  have hhead := List.takeWhile_append_dropWhile (p := Text.isAsciiBlank) (l := head)
  generalize head.takeWhile Text.isAsciiBlank = blanks at hhead hskip
  generalize head.dropWhile Text.isAsciiBlank = body at hhead ⊢
  have hbody := List.takeWhile_append_dropWhile (p := fun c => !endsName c) (l := body)
  have hbetween := Text.bytesBetween?_octets blanks body tail
  have hsize : ((octets body).takeWhile fun c => !endsName c).length =
      byteSize (body.takeWhile fun c => !endsName c) := by
    rw [Text.octets_takeWhile asciiSort_endsName.not, Text.length_octets]
  refine ⟨blanks, _, _, ?_, rfl, rfl, ?_⟩
  · rw [List.append_assoc, hbody, hhead]
  · rw [List.nil_append, List.nil_append, Text.byteSize_nil] at hskip
    rw [hhead] at hbetween
    unfold nameRange?
    rw [hskip]
    simp only [Option.bind_eq_bind, Option.bind_some]
    rw [hbetween, Option.bind_some, hsize, Text.byteSize_append]

theorem typeStart?_octets (front rest : List Char) {tail : List Char}
    (htail : tail.head? ≠ some ':') : ∃ gap type, rest = gap ++ type ∧
      typeStart? (octets (front ++ rest ++ tail)) (byteSize front) (byteSize (front ++ rest)) =
        some (byteSize (front ++ gap)) ∧
      typeAfterName rest = Text.trim (dropEllipses type) := by
  have hsplit := List.takeWhile_append_dropWhile (p := Text.isAsciiBlank) (l := rest)
  have hnext := Text.getElem?_octets (front ++ rest.takeWhile Text.isAsciiBlank)
    (rest.dropWhile Text.isAsciiBlank ++ tail)
  rw [List.append_assoc front, ← List.append_assoc (rest.takeWhile _), hsplit,
    ← List.append_assoc] at hnext
  have hcolon := Text.rel_twin_iff (Text.twin_head (rest.dropWhile Text.isAsciiBlank ++ tail))
    (show IsAscii ':' by decide)
  unfold typeStart? typeAfterName
  rw [skipBlanks?_octets]
  simp only [Option.bind_eq_bind, Option.bind_some]
  rw [hnext, if_congr hcolon rfl rfl]
  cases hafter : rest.dropWhile Text.isAsciiBlank with
  | nil =>
      rw [hafter, List.append_nil] at hsplit
      rw [List.nil_append, if_neg htail]
      exact ⟨_, [], by rw [List.append_nil, hsplit], rfl, rfl⟩
  | cons c cs =>
      rw [hafter] at hsplit
      by_cases hc : c = ':'
      · subst hc
        have hfront : front ++ rest ++ tail =
            (front ++ (rest.takeWhile Text.isAsciiBlank ++ [':'])) ++ cs ++ tail := by
          conv => lhs; rw [← hsplit]
          simp
        have hskip := skipBlanks?_octets
          (front ++ (rest.takeWhile Text.isAsciiBlank ++ [':'])) cs tail
        have hcolonSize : byteSize (front ++ rest.takeWhile Text.isAsciiBlank) + 1 =
            byteSize (front ++ (rest.takeWhile Text.isAsciiBlank ++ [':'])) := by
          simp only [Text.byteSize_append, Text.byteSize_cons, Text.byteSize_nil]
          rfl
        rw [List.cons_append, List.head?_cons, if_pos rfl, hcolonSize, hfront]
        refine ⟨(rest.takeWhile Text.isAsciiBlank ++ [':']) ++ cs.takeWhile Text.isAsciiBlank,
          cs.dropWhile Text.isAsciiBlank, ?_, ?_, rfl⟩
        · rw [List.append_assoc, List.takeWhile_append_dropWhile]
          conv => lhs; rw [← hsplit]
          simp
        · have hrest : front ++ rest =
              front ++ (rest.takeWhile Text.isAsciiBlank ++ [':']) ++ cs := by
            conv => lhs; rw [← hsplit]
            simp
          rw [hrest, hskip, List.append_assoc front]
      · rw [List.cons_append, List.head?_cons, if_neg (by simpa using hc)]
        refine ⟨_, c :: cs, hsplit.symm, rfl, ?_⟩
        split
        · rename_i h
          exact absurd (List.cons.inj h).1 hc
        · rfl

/-! ## The whole declaration -/

/-- **Reading a declaration never goes wrong**, and it gives what the declaration
declares. -/
theorem ofDeclaration?_eq (text : String) : ofDeclaration? text = some (ofDeclaration text) := by
  have hboundary := boundary?_octets [] text.toList 0
  have hsource := splitDefault_source 0 none text.toList
  unfold ofDeclaration? ofDeclaration
  simp only [List.head?_nil, List.reverse_nil, List.nil_append, Text.byteSize_nil, Nat.zero_add]
    at hboundary
  generalize splitDefault 0 none text.toList = split at hboundary hsource ⊢
  obtain ⟨head, default?⟩ := split
  simp only at hboundary hsource ⊢
  generalize htail : (default?.map ('=' :: ·)).getD [] = tail at hsource
  have hcolon : tail.head? ≠ some ':' := by
    rw [← htail]
    cases default? <;> simp
  have hstop : (default?.map fun _ => byteSize head).getD (octets text.toList).length =
      byteSize head := by
    cases default? with
    | none =>
        obtain rfl : tail = [] := htail.symm
        rw [hsource, List.append_nil, Text.length_octets]
        rfl
    | some expression => rfl
  have hcutHead : cut? text.toList 0 (byteSize head) = some ⟨0, String.ofList head⟩ := by
    rw [hsource]
    exact Text.cut?_append [] head tail
  have hcutDefault (expression : List Char) (h : default? = some expression) :
      cut? text.toList (byteSize head + 1) (octets text.toList).length =
        some ⟨byteSize head + 1, String.ofList expression⟩ := by
    have hcut := Text.cut?_append (head ++ ['=']) expression []
    have hbytes : head ++ ['='] ++ expression = text.toList := by
      rw [hsource, ← htail, h]
      simp
    rw [List.append_nil, hbytes, Text.byteSize_append] at hcut
    rw [Text.length_octets]
    exact hcut
  -- The head is blanks, the name, and what the type is read from.
  obtain ⟨blanks, name, rest, hhead, hname, hrest, hrange⟩ := nameRange?_octets head tail
  obtain ⟨gap, type, htype, htypeStart, htypeText⟩ :=
    typeStart?_octets (blanks ++ name) rest hcolon
  rw [← hsource] at hrange
  rw [← hhead, ← hsource] at htypeStart
  have hcutName : cut? text.toList (byteSize blanks) (byteSize (blanks ++ name)) =
      some ⟨byteSize blanks, String.ofList name⟩ := by
    rw [hsource, hhead, List.append_assoc _ rest]
    exact Text.cut?_append blanks name (rest ++ tail)
  have hcutType : cut? text.toList (byteSize (blanks ++ name ++ gap)) (byteSize head) =
      some ⟨byteSize (blanks ++ name ++ gap), String.ofList type⟩ := by
    rw [hsource, hhead, htype, ← List.append_assoc]
    exact Text.cut?_append (blanks ++ name ++ gap) type tail
  simp only [Option.bind_eq_bind, hboundary, Option.bind_some, hstop, hcutHead, hrange, hcutName,
    htypeStart, hcutType, String.toList_ofList, ← htypeText, ← hname, ← hrest]
  by_cases hmissing : String.ofList (dropEllipses name) = ""
  · rw [if_pos hmissing, if_pos hmissing]
  · rw [if_neg hmissing, if_neg hmissing]
    cases default? with
    | none => rfl
    | some expression =>
        simp only [Option.map_some, hcutDefault expression rfl, Option.bind_some,
          String.toList_ofList]
        cases Text.trim expression <;> rfl

end Templating.Param
