import Templating.Argument
import Templating.Proofs.Text.Identifier
import Templating.Proofs.Text.Joined
import Templating.Proofs.Text.Trim

/-!
# Which arguments are named

An argument is named when it begins like an assignment: an identifier, blanks, and an `=`
that neither a second `=` nor a `>` follows. The reader of arguments looks for the `=`
further on too, with an eye on brackets, strings and operators. But none of these can
stand in an identifier, so an `=` that is found behind any of them names nothing; and once
it is found, what comes behind it is not looked at.
-/

namespace Templating.Argument

/-- The text assigns the value to the name. -/
def Assigns (text name value : List Char) : Prop :=
  ∃ gap rest, text = name ++ gap ++ '=' :: rest ∧ Text.isIdentifier name = true ∧
    (∀ c ∈ gap, Text.isBlank c = true) ∧ rest.head? ≠ some '=' ∧ rest.head? ≠ some '>' ∧
    value = Text.trim rest

/-- What stands before the `=` of an assignment. -/
def leads (c : Char) : Bool :=
  Text.continuesIdentifier c || Text.isBlank c

theorem leads_of_isIdentifier {name gap : List Char} (hname : Text.isIdentifier name = true)
    (hgap : ∀ c ∈ gap, Text.isBlank c = true) : ∀ c ∈ name ++ gap, leads c = true := by
  intro c hc
  rcases List.mem_append.mp hc with hc | hc
  · rw [leads, Text.continues_of_isIdentifier hname c hc, Bool.true_or]
  · rw [leads, hgap c hc, Bool.or_true]

/-! ## Looking for the `=` -/

theorem splitAssignment_skip {c : Char} (hc : leads c = true) (previous : Option Char)
    (cs : List Char) : splitAssignment 0 .outside previous (c :: cs) =
      (splitAssignment 0 .outside (some c) cs).map fun (left, right) => (c :: left, right) := by
  have hne (a : Char) (ha : leads a = false) : c ≠ a := by
    rintro rfl
    rw [ha] at hc
    cases hc
  have hopens : opensBracket c = false := by
    simp [opensBracket, hne '(' (by decide), hne '[' (by decide), hne '\x7b' (by decide)]
  have hcloses : closesBracket c = false := by
    simp [closesBracket, hne ')' (by decide), hne ']' (by decide), hne '\x7d' (by decide)]
  have hquoting : Quoting.after .outside c = .outside := if_neg (hne '"' (by decide))
  rw [splitAssignment, if_neg fun h => hne '=' (by decide) h.1]
  simp [hopens, hcloses, hquoting]

/-- The `=` of an assignment is the one that is found. -/
theorem splitAssignment_behind {front rest : List Char} (hfront : ∀ c ∈ front, leads c = true)
    {previous : Option Char} (hprevious : ∀ c ∈ previous, leads c = true)
    (hequal : rest.head? ≠ some '=') (harrow : rest.head? ≠ some '>') :
    splitAssignment 0 .outside previous (front ++ '=' :: rest) = some (front, rest) := by
  induction front generalizing previous with
  | nil =>
      have hne (a : Char) (ha : leads a = false) : previous ≠ some a := by
        rintro rfl
        rw [hprevious a rfl] at ha
        cases ha
      have hoperator : isOperator previous rest.head? = false := by
        simp [isOperator, hne '=' (by decide), hne '!' (by decide), hne '<' (by decide),
          hne '>' (by decide), hequal, harrow]
      rw [List.nil_append, splitAssignment, if_pos ⟨rfl, rfl, rfl, by rw [hoperator]; rfl⟩]
  | cons c front ih =>
      obtain ⟨hc, hfront⟩ := List.forall_mem_cons.mp hfront
      have hnext : ∀ d ∈ some c, leads d = true := by
        rintro d ⟨⟩
        exact hc
      rw [List.cons_append, splitAssignment_skip hc, ih hfront hnext]
      rfl

/-- Whatever `=` is found, the text is cut there and it belongs to no longer operator. -/
theorem eq_of_splitAssignment {depth : Nat} {q : Quoting} {previous : Option Char}
    {cs left right : List Char} (h : splitAssignment depth q previous cs = some (left, right)) :
    cs = left ++ '=' :: right ∧ right.head? ≠ some '=' ∧ right.head? ≠ some '>' := by
  induction cs generalizing depth q previous left with
  | nil => cases h
  | cons c cs ih =>
      rw [splitAssignment] at h
      split at h
      · rename_i hfound
        obtain ⟨rfl, -, -, hoperator⟩ := hfound
        cases h
        simp only [isOperator, Bool.not_eq_true', Bool.or_eq_false_iff,
          beq_eq_false_iff_ne] at hoperator
        exact ⟨rfl, hoperator.1.2, hoperator.2⟩
      · obtain ⟨⟨left', right'⟩, hrest, heq⟩ := Option.map_eq_some_iff.mp h
        cases heq
        obtain ⟨rfl, hright⟩ := ih hrest
        exact ⟨rfl, hright⟩

/-! ## Assignments -/

theorem Assigns.split {text name value : List Char} (h : Assigns text name value) :
    ∃ left right, splitAssignment 0 .outside none text = some (left, right) ∧
      Text.trim left = name ∧ Text.isIdentifier name = true ∧ Text.trim right = value := by
  obtain ⟨gap, rest, rfl, hname, hgap, hequal, harrow, rfl⟩ := h
  refine ⟨name ++ gap, rest, ?_, ?_, hname, rfl⟩
  · exact splitAssignment_behind (leads_of_isIdentifier hname hgap) nofun hequal harrow
  · rw [Text.trim_append_blank name hgap, Text.trim_of_isIdentifier hname]

/-- A text that begins with no blank assigns if an identifier with blanks around it stands
before an `=` of its own. -/
theorem assigns_of_trim {text front rest : List Char}
    (htext : ∀ c, text.head? = some c → Text.isBlank c = false)
    (hsplit : text = front ++ '=' :: rest)
    (hname : Text.isIdentifier (Text.trim front) = true) (hequal : rest.head? ≠ some '=')
    (harrow : rest.head? ≠ some '>') : Assigns text (Text.trim front) (Text.trim rest) := by
  obtain ⟨blanks, gap, hfront, hblanks, hgap⟩ := Text.exists_trim front
  have hnil : blanks = [] := by
    cases blanks with
    | nil => rfl
    | cons c blanks =>
        have hc := htext c (by rw [hsplit, hfront]; rfl)
        rw [hblanks c List.mem_cons_self] at hc
        cases hc
  rw [hnil, List.nil_append] at hfront
  exact ⟨gap, rest, by rw [← hfront, hsplit], hname, hgap, hequal, harrow, rfl⟩

variable {raw : String}

theorem classify_of_assigns {name value : List Char}
    (h : Assigns (Text.trim raw.toList) name value) :
    classify raw = .named (String.ofList name) (String.ofList value) := by
  obtain ⟨left, right, hsplit, hleft, hname, hright⟩ := h.split
  unfold classify
  simp only [hsplit, hleft, hname, hright, if_true]

theorem classify_of_not_assigns (h : ∀ name value, ¬ Assigns (Text.trim raw.toList) name value) :
    classify raw = .positional (Text.trimmed raw) := by
  unfold classify
  simp only
  split
  · rfl
  · rename_i left right hsplit
    split
    · rename_i hname
      obtain ⟨htext, hequal, harrow⟩ := eq_of_splitAssignment hsplit
      have hassigns := assigns_of_trim (fun c => Text.head?_trim) htext hname hequal harrow
      exact absurd hassigns (h _ _)
    · rfl

/-- **Whether an argument is named is decided at its first `=`**, by what stands before it
and by the one character behind it. -/
theorem isPositional_iff {front rest : List Char}
    (htext : Text.trim raw.toList = front ++ '=' :: rest) (hfirst : '=' ∉ front) :
    (classify raw).isPositional = false ↔ Text.isIdentifier (Text.trim front) = true ∧
      rest.head? ≠ some '=' ∧ rest.head? ≠ some '>' := by
  constructor
  · intro hnamed
    by_contra hnot
    have hnone : ∀ name value, ¬ Assigns (Text.trim raw.toList) name value := by
      rintro name value ⟨gap, rest', htext', hname, hgap, hequal, harrow, -⟩
      have hplain : '=' ∉ name ++ gap := by
        intro hmem
        cases leads_of_isIdentifier hname hgap _ hmem
      obtain ⟨rfl, rfl⟩ := Text.append_cons_inj hfirst hplain (htext.symm.trans htext')
      refine hnot ⟨?_, hequal, harrow⟩
      rwa [Text.trim_append_blank name hgap, Text.trim_of_isIdentifier hname]
    rw [classify_of_not_assigns hnone] at hnamed
    cases hnamed
  · rintro ⟨hname, hequal, harrow⟩
    have hassigns := assigns_of_trim (fun c => Text.head?_trim) htext hname hequal harrow
    rw [classify_of_assigns hassigns]
    rfl

/-- **An argument is named just when it assigns**, and then by the name and with the value
that it says. Any other argument is positional, all of it. So what stands before the first
`=` and the character behind it decide: no operator, bracket, string or path before the `=`
leaves it an assignment, and nothing in the value matters. -/
theorem classify_named_iff (raw : String) :
    (∀ name value, classify raw = .named name value ↔
      Assigns (Text.trim raw.toList) name.toList value.toList) ∧
    (∀ value, classify raw = .positional value ↔ value = Text.trimmed raw ∧
      ∀ name value', ¬ Assigns (Text.trim raw.toList) name value') ∧
    ∀ front rest, Text.trim raw.toList = front ++ '=' :: rest → '=' ∉ front →
      ((classify raw).isPositional = false ↔ Text.isIdentifier (Text.trim front) = true ∧
        rest.head? ≠ some '=' ∧ rest.head? ≠ some '>') := by
  rw [← and_assoc]
  refine ⟨?_, fun front rest => isPositional_iff⟩
  by_cases hassigns : ∃ name value, Assigns (Text.trim raw.toList) name value
  · obtain ⟨name, value, hassigns⟩ := hassigns
    have hnamed := classify_of_assigns hassigns
    refine ⟨fun name' value' => ⟨?_, ?_⟩, fun value' => ⟨?_, ?_⟩⟩
    · intro h
      obtain ⟨rfl, rfl⟩ := named.inj (hnamed.symm.trans h)
      rwa [String.toList_ofList, String.toList_ofList]
    · intro h
      rw [classify_of_assigns h, String.ofList_toList, String.ofList_toList]
    · intro h
      cases hnamed.symm.trans h
    · rintro ⟨-, hnone⟩
      exact absurd hassigns (hnone name value)
  · have hnone : ∀ name value, ¬ Assigns (Text.trim raw.toList) name value :=
      fun name value h => hassigns ⟨name, value, h⟩
    have hpositional := classify_of_not_assigns hnone
    refine ⟨fun name value => ⟨?_, ?_⟩, fun value => ?_⟩
    · intro h
      cases hpositional.symm.trans h
    · intro h
      exact absurd h (hnone _ _)
    · rw [hpositional, positional.injEq, and_iff_left hnone]
      exact eq_comm

example : classify " two = x => y " = .named "two" "x => y" := by decide +kernel

example : classify "f(a = 1)" = .positional "f(a = 1)" := by decide +kernel

end Templating.Argument
