import Templating.Markup.Escape

/-!
# Escaped text

Escaped text has no special characters but the ampersands of references. Reading the
references back gives the text, and what is escaped in parts is escaped as a whole. The
chunks in which escaped text is written are not empty, and together they are the whole.
-/

namespace Templating.Markup

/-- The character is one of those for which a reference stands. -/
def isSpecial (c : Char) : Bool :=
  (reference? c).isSome

/-- All special characters, each with its reference. -/
def references : List (Char × String) :=
  [('&', "&amp;"), ('<', "&lt;"), ('>', "&gt;"), ('"', "&#34;"), ('\'', "&#39;")]

theorem mem_references {c : Char} {r : String} (h : reference? c = some r) :
    (c, r) ∈ references := by
  unfold reference? at h
  split at h <;> simp_all [references]

theorem escapeChar_of_special {c : Char} {r : String} (h : reference? c = some r) :
    escapeChar c = r.toList := by
  rw [escapeChar, h]

theorem escapeChar_of_ordinary {c : Char} (h : reference? c = none) : escapeChar c = [c] := by
  rw [escapeChar, h]

/-- **Escaping in parts is escaping as a whole.** -/
theorem escape_append (s t : String) : escape (s ++ t) = escape s ++ escape t := by
  rw [escape, String.toList_append, List.flatMap_append, String.ofList_append]
  rfl

/-! ## No special characters -/

theorem ampersand_of_references {x : Char × String} (hx : x ∈ references) {c : Char}
    (hc : isSpecial c = true) (h : c ∈ x.2.toList) : c = '&' := by
  have hall : (references.all fun x =>
      x.2.toList.all fun c => !isSpecial c || c == '&') = true := by decide
  have hchecked := List.all_eq_true.mp (List.all_eq_true.mp hall x hx) c h
  simpa [hc] using hchecked

/-- Of the special characters, only the ampersand stands in escaped text. -/
theorem special_mem_escape {s : String} {c : Char} (hc : isSpecial c = true)
    (h : c ∈ (escape s).toList) : c = '&' := by
  rw [escape, String.toList_ofList] at h
  obtain ⟨d, -, hmem⟩ := List.mem_flatMap.mp h
  cases hd : reference? d with
  | none =>
      rw [escapeChar_of_ordinary hd, List.mem_singleton] at hmem
      subst hmem
      rw [isSpecial, hd] at hc
      cases hc
  | some r =>
      rw [escapeChar_of_special hd] at hmem
      exact ampersand_of_references (mem_references hd) hc hmem

/-! ## Reading references -/

/-- The text with its references read, one after the other. An ampersand that begins
none stands for itself. -/
def readReferences : List Char → List Char
  | '&' :: 'a' :: 'm' :: 'p' :: ';' :: cs => '&' :: readReferences cs
  | '&' :: 'l' :: 't' :: ';' :: cs => '<' :: readReferences cs
  | '&' :: 'g' :: 't' :: ';' :: cs => '>' :: readReferences cs
  | '&' :: '#' :: '3' :: '4' :: ';' :: cs => '"' :: readReferences cs
  | '&' :: '#' :: '3' :: '9' :: ';' :: cs => '\'' :: readReferences cs
  | c :: cs => c :: readReferences cs
  | [] => []

theorem readReferences_reference {c : Char} {r : String} (h : reference? c = some r)
    (cs : List Char) : readReferences (r.toList ++ cs) = c :: readReferences cs := by
  have hreferences : ∀ x ∈ references,
      readReferences (x.2.toList ++ cs) = x.1 :: readReferences cs := by
    simp only [references, List.forall_mem_cons, List.not_mem_nil, false_imp_iff,
      implies_true, and_true]
    exact ⟨rfl, rfl, rfl, rfl, rfl⟩
  exact hreferences _ (mem_references h)

theorem readReferences_cons {c : Char} (h : c ≠ '&') (cs : List Char) :
    readReferences (c :: cs) = c :: readReferences cs := by
  rw [readReferences]
  all_goals
    intro _ hc _
    exact h hc

/-- **Reading the references of escaped text gives the text back.** -/
theorem readReferences_escape (s : String) : readReferences (escape s).toList = s.toList := by
  rw [escape, String.toList_ofList]
  induction s.toList with
  | nil => rfl
  | cons c cs ih =>
      rw [List.flatMap_cons]
      cases hc : reference? c with
      | none =>
          rw [escapeChar_of_ordinary hc, List.singleton_append, readReferences_cons, ih]
          rintro rfl
          cases hc
      | some r => rw [escapeChar_of_special hc, readReferences_reference hc, ih]

/-! ## Chunks -/

theorem runChunk_ne_empty (run : List Char) : ∀ chunk ∈ runChunk run, chunk ≠ "" := by
  intro chunk hchunk
  unfold runChunk at hchunk
  split at hchunk
  · cases hchunk
  · rename_i hrun
    rw [List.mem_singleton.mp hchunk]
    simpa using hrun

theorem join_runChunk (run : List Char) :
    String.join (runChunk run) = String.ofList run.reverse := by
  unfold runChunk
  split
  · rename_i hrun
    rw [List.isEmpty_iff.mp hrun]
    rfl
  · simp

theorem chunksAfter_ne_empty (run cs : List Char) :
    ∀ chunk ∈ chunksAfter run cs, chunk ≠ "" := by
  induction cs generalizing run with
  | nil => exact runChunk_ne_empty run
  | cons c cs ih =>
      rw [chunksAfter]
      cases hc : reference? c with
      | none => exact ih (c :: run)
      | some r =>
          intro chunk hchunk
          rcases List.mem_append.mp hchunk with hrun | hrest
          · exact runChunk_ne_empty run chunk hrun
          · rcases List.mem_cons.mp hrest with rfl | hrest
            · have hreferences : ∀ x ∈ references, x.2 ≠ "" := by decide
              exact hreferences _ (mem_references hc)
            · exact ih [] chunk hrest

theorem join_chunksAfter (run cs : List Char) : String.join (chunksAfter run cs) =
    String.ofList (run.reverse ++ cs.flatMap escapeChar) := by
  induction cs generalizing run with
  | nil =>
      rw [chunksAfter, join_runChunk, List.flatMap_nil, List.append_nil]
  | cons c cs ih =>
      rw [chunksAfter, List.flatMap_cons]
      cases hc : reference? c with
      | none =>
          show String.join (chunksAfter (c :: run) cs) = _
          rw [ih, escapeChar_of_ordinary hc, List.reverse_cons, List.append_assoc]
      | some r =>
          show String.join (runChunk run ++ r :: chunksAfter [] cs) = _
          rw [String.join_append, String.join_cons, join_runChunk, ih, escapeChar_of_special hc,
            List.reverse_nil, List.nil_append, String.ofList_append, String.ofList_append,
            String.ofList_toList]

/-- **The chunks of escaped text are the whole of it.** -/
theorem join_escapeChunks (s : String) : String.join (escapeChunks s) = escape s := by
  rw [escapeChunks, join_chunksAfter]
  rfl

/-- Ordinary characters go into the run. -/
theorem chunksAfter_append {front : List Char} (h : ∀ c ∈ front, reference? c = none)
    (run cs : List Char) :
    chunksAfter run (front ++ cs) = chunksAfter (front.reverse ++ run) cs := by
  induction front generalizing run with
  | nil => rfl
  | cons c front ih =>
      obtain ⟨hc, hfront⟩ := List.forall_mem_cons.mp h
      rw [List.cons_append, chunksAfter, hc]
      simp only
      rw [ih hfront, List.reverse_cons, List.append_assoc, List.singleton_append]

end Templating.Markup
