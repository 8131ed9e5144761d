import Templating.Proofs.Param.Bytes
import Templating.Proofs.Text.Everywhere
import Templating.Proofs.Text.Trim

/-!
# Reading a declaration that was written

A parameter that is written as a declaration is read again as it was, though its name,
its type, its ellipsis and its default value are found independently of each other. The
`=` before the default value is the first one outside angle brackets because the
declaration has none before it, and so nothing in the default value matters. An ellipsis
behind the type takes no dot of the type with it.
-/

namespace Templating.Param

/-! ## Ellipses -/

/-- The three dots that make a parameter variadic. -/
def ellipsis : List Char := ['.', '.', '.']

theorem hasEllipsis_iff {cs : List Char} : hasEllipsis cs = true ↔ ellipsis <:+: cs := by
  induction cs using hasEllipsis.induct with
  | case1 cs => exact iff_of_true rfl ⟨[], cs, rfl⟩
  | case2 c cs hc ih =>
      rw [hasEllipsis.eq_2 c cs hc, ih, List.infix_cons_iff, or_iff_right]
      rintro ⟨rest, hrest⟩
      cases hrest
      exact hc rest rfl rfl
  | case3 => exact iff_of_false (by decide) (by decide)

theorem hasEllipsis_eq_false {cs : List Char} (h : ¬ ellipsis <:+: cs) :
    hasEllipsis cs = false := by
  rwa [← Bool.not_eq_true, hasEllipsis_iff]

/-- Dots that begin no ellipsis begin none with another character behind them. -/
theorem not_dots_append {x c : Char} {xs ys rest : List Char} (hc : c ≠ '.')
    (hx : ∀ tail, x = '.' → xs = '.' :: '.' :: tail → False) (hdot : x = '.') :
    xs ++ c :: ys ≠ '.' :: '.' :: rest := by
  intro hrest
  rcases xs with _ | ⟨y, _ | ⟨z, xs⟩⟩
  · exact hc (List.cons.inj hrest).1
  · exact hc (List.cons.inj (List.cons.inj hrest).2).1
  · obtain ⟨rfl, htail⟩ := List.cons.inj hrest
    obtain ⟨rfl, -⟩ := List.cons.inj htail
    exact hx xs hdot rfl

/-- An ellipsis does not go over another character. -/
theorem hasEllipsis_append_cons {c : Char} (hc : c ≠ '.') (xs ys : List Char) :
    hasEllipsis (xs ++ c :: ys) = (hasEllipsis xs || hasEllipsis ys) := by
  induction xs using hasEllipsis.induct with
  | case1 xs => rfl
  | case2 x xs hx ih =>
      rw [List.cons_append, hasEllipsis.eq_2 x xs hx, hasEllipsis.eq_2, ih]
      exact fun rest hdot => not_dots_append hc hx hdot
  | case3 =>
      rw [List.nil_append, hasEllipsis.eq_2]
      · rfl
      · exact fun rest hdot => absurd hdot hc

theorem dropEllipses_append_cons {c : Char} (hc : c ≠ '.') (xs ys : List Char) :
    dropEllipses (xs ++ c :: ys) = dropEllipses xs ++ c :: dropEllipses ys := by
  induction xs using dropEllipses.induct with
  | case1 xs ih => exact ih
  | case2 x xs hx ih =>
      rw [List.cons_append, dropEllipses.eq_2 x xs hx, dropEllipses.eq_2, ih, List.cons_append]
      exact fun rest hdot => not_dots_append hc hx hdot
  | case3 =>
      rw [List.nil_append, dropEllipses.eq_2]
      · rfl
      · exact fun rest hdot => absurd hdot hc

theorem dropEllipses_eq_self {cs : List Char} (h : hasEllipsis cs = false) :
    dropEllipses cs = cs := by
  induction cs using hasEllipsis.induct with
  | case1 cs => cases h
  | case2 c cs hc ih =>
      rw [hasEllipsis.eq_2 c cs hc] at h
      rw [dropEllipses.eq_2 c cs hc, ih h]
  | case3 => rfl

/-- Of dots at the end of a text and an ellipsis behind it the first three go, and as many
as there were are left. -/
theorem dropEllipses_append_ellipsis {cs : List Char} (h : hasEllipsis cs = false) :
    dropEllipses (cs ++ ellipsis) = cs := by
  induction cs using hasEllipsis.induct with
  | case1 cs => cases h
  | case2 c cs hc ih =>
      rw [hasEllipsis.eq_2 c cs hc] at h
      by_cases hdots : ∃ rest, c = '.' ∧ cs ++ ellipsis = '.' :: '.' :: rest
      · -- The text is one dot or two, or it begins with an ellipsis, which it does not.
        obtain ⟨rest, rfl, hrest⟩ := hdots
        rcases cs with _ | ⟨y, _ | ⟨z, cs⟩⟩
        · rfl
        · obtain ⟨rfl, -⟩ := List.cons.inj hrest
          rfl
        · obtain ⟨rfl, htail⟩ := List.cons.inj hrest
          obtain ⟨rfl, -⟩ := List.cons.inj htail
          exact absurd rfl (hc cs rfl)
      · rw [List.cons_append, dropEllipses.eq_2, ih h]
        exact fun rest hdot hrest => hdots ⟨rest, hdot, hrest⟩
  | case3 => rfl

/-- Blanks in front make no difference to a text that is trimmed once its ellipses are
dropped. -/
theorem trim_dropEllipses_dropWhile (cs : List Char) :
    Text.trim (dropEllipses (cs.dropWhile Text.isAsciiBlank)) = Text.trim (dropEllipses cs) := by
  induction cs with
  | nil => rfl
  | cons c cs ih =>
      cases hc : Text.isAsciiBlank c with
      | false => rw [List.dropWhile_cons_of_neg (by simp [hc])]
      | true =>
          have hdot : c ≠ '.' := by
            rintro rfl
            cases hc
          have hdrop : dropEllipses (c :: cs) = [c] ++ dropEllipses cs :=
            dropEllipses_append_cons hdot [] cs
          rw [List.dropWhile_cons_of_pos hc, ih, hdrop, Text.trim_blank_append]
          exact List.forall_mem_singleton.mpr (Text.isBlank_of_isAsciiBlank hc)

/-! ## Angle brackets -/

/-- The number of angle brackets that are open behind a text, where `depth` are open before
it. -/
def depthAfter (depth : Nat) (previous : Option Char) : List Char → Nat
  | [] => depth
  | c :: cs => depthAfter (depthBehind depth previous c) (some c) cs

/-- Every `=` of the text stands in angle brackets that are open, and each of them is closed
at its end. -/
def Enclosed (cs : List Char) : Prop :=
  Everywhere (fun before c _ => c = '=' → 0 < depthAfter 0 none before) cs ∧
    depthAfter 0 none cs = 0

instance (cs : List Char) : Decidable (Enclosed cs) :=
  inferInstanceAs (Decidable (Everywhere _ cs ∧ _))

section Depth

variable {depth : Nat} {previous : Option Char} {cs : List Char}

theorem depthAfter_flat (h : ∀ c ∈ cs, c ≠ '<' ∧ c ≠ '>') :
    depthAfter depth previous cs = depth := by
  induction cs generalizing previous with
  | nil => rfl
  | cons c cs ih =>
      obtain ⟨⟨hopen, hclose⟩, hrest⟩ := List.forall_mem_cons.mp h
      have hdepth : depthBehind depth previous c = depth := by
        rw [depthBehind, if_neg hopen, if_neg fun hc => hclose hc.1]
      rw [depthAfter, hdepth, ih hrest]

/-- Only a dash changes what the next character does. -/
theorem depthAfter_behind (h : previous ≠ some '-') :
    depthAfter depth previous cs = depthAfter depth none cs := by
  cases cs with
  | nil => rfl
  | cons c cs => simp [depthAfter, depthBehind, h]

/-- Text without an `=` outside of brackets stands before the default value. -/
theorem splitDefault_append
    (h : Everywhere (fun before c _ => c = '=' → 0 < depthAfter depth previous before) cs)
    (rest : List Char) : splitDefault depth previous (cs ++ rest) =
      let split := splitDefault (depthAfter depth previous cs) (cs.getLast?.or previous) rest
      (cs ++ split.1, split.2) := by
  induction cs generalizing depth previous with
  | nil => rfl
  | cons c cs ih =>
      obtain ⟨hfirst, hrest⟩ := everywhere_cons.mp h
      have hinside : ¬ (c = '=' ∧ depth = 0) := by
        rintro ⟨hc, hzero⟩
        exact absurd hzero (Nat.ne_of_gt (hfirst hc))
      have hlast : (c :: cs).getLast?.or previous = cs.getLast?.or (some c) := by
        rw [List.getLast?_cons]
        cases cs.getLast? <;> rfl
      rw [List.cons_append, splitDefault_cons, if_neg hinside, ih hrest, hlast]
      rfl

/-- So does text without any of the three characters, and it leaves the brackets as they
were. -/
theorem splitDefault_flat (h : ∀ c ∈ cs, c ≠ '=' ∧ c ≠ '<' ∧ c ≠ '>') (rest : List Char) :
    splitDefault depth previous (cs ++ rest) =
      let split := splitDefault depth (cs.getLast?.or previous) rest
      (cs ++ split.1, split.2) := by
  have hnone : Everywhere (fun before c _ => c = '=' → 0 < depthAfter depth previous before)
      cs := by
    rintro before c after rfl hc
    exact absurd hc (h c (by simp)).1
  rw [splitDefault_append hnone, depthAfter_flat fun c hc => (h c hc).2]

end Depth

/-! ## Reading what was written -/

/-- A parameter whose declaration can be told apart into its parts again. The default value
may be anything. -/
structure Declarable (p : Param) : Prop where
  name_ne : p.name ≠ ""
  name_solid : ∀ c ∈ p.name.toList, Text.isBlank c = false ∧ c ∉ [':', '=', '<', '>']
  name_plain : ¬ ellipsis <:+: p.name.toList
  type_trimmed : Text.trimmed p.type = p.type
  type_plain : ¬ ellipsis <:+: p.type.toList
  type_enclosed : Enclosed p.type.toList
  default_trimmed : ∀ x, p.default? = some x → Text.trimmed x = x ∧ x ≠ ""

/-- What stands in the declaration behind the type and before the `=`. -/
def typeEnd (p : Param) : List Char :=
  (if p.variadic then ellipsis else []) ++ if p.default?.isSome then [' '] else []

variable {p : Param}

theorem declaration_toList (p : Param) : p.declaration.toList =
    (p.name.toList ++ [':', ' ']) ++ (p.type.toList ++ (typeEnd p ++
      (p.default?.map fun x => '=' :: ' ' :: x.toList).getD [])) := by
  unfold declaration typeEnd
  cases p.variadic <;> cases p.default? <;> simp [String.toList_append, ellipsis]

/-- The `=` that is found is the one before the default value. -/
theorem Declarable.splitDefault_eq (h : p.Declarable) :
    splitDefault 0 none p.declaration.toList =
      (p.name.toList ++ [':', ' '] ++ (p.type.toList ++ typeEnd p),
        p.default?.map fun x => ' ' :: x.toList) := by
  have hname : ∀ c ∈ p.name.toList ++ [':', ' '], c ≠ '=' ∧ c ≠ '<' ∧ c ≠ '>' := by
    intro c hc
    rcases List.mem_append.mp hc with hc | hc
    · have hsolid := (h.name_solid c hc).2
      simp only [List.mem_cons, not_or] at hsolid
      exact ⟨hsolid.2.1, hsolid.2.2.1, hsolid.2.2.2.1⟩
    · rcases List.mem_pair.mp hc with rfl | rfl <;> decide
  have hend : ∀ c ∈ typeEnd p, c ≠ '=' ∧ c ≠ '<' ∧ c ≠ '>' := by
    unfold typeEnd
    cases p.variadic <;> cases p.default?.isSome <;> simp [ellipsis]
  -- The type stands behind a space, and no bracket is open there.
  have hspace : some ' ' ≠ some '-' := by decide
  have htype : Everywhere (fun before c _ => c = '=' → 0 < depthAfter 0 (some ' ') before)
      p.type.toList := by
    intro before c after hsplit hc
    rw [depthAfter_behind hspace]
    exact h.type_enclosed.1 before c after hsplit hc
  have hclosed : depthAfter 0 (some ' ') p.type.toList = 0 := by
    rw [depthAfter_behind hspace]
    exact h.type_enclosed.2
  rw [declaration_toList, splitDefault_flat hname]
  simp only [List.getLast?_append, List.getLast?_cons_cons, List.getLast?_singleton, Option.some_or]
  rw [splitDefault_append htype, hclosed, splitDefault_flat hend]
  cases p.default? <;> simp [splitDefault]

/-- The head of the declaration has an ellipsis just when the parameter is variadic. -/
theorem Declarable.hasEllipsis_head (h : p.Declarable) :
    hasEllipsis (p.name.toList ++ ':' :: ' ' :: (p.type.toList ++ typeEnd p)) = p.variadic := by
  have hmarked : hasEllipsis (p.type.toList ++ if p.variadic then ellipsis else []) =
      p.variadic := by
    cases p.variadic with
    | true => exact hasEllipsis_iff.mpr (List.suffix_append _ _).isInfix
    | false => exact (congrArg _ (List.append_nil _)).trans (hasEllipsis_eq_false h.type_plain)
  have hend : hasEllipsis (p.type.toList ++ typeEnd p) = p.variadic := by
    unfold typeEnd
    rw [← List.append_assoc]
    cases p.default?.isSome with
    | true =>
        rw [if_pos rfl, hasEllipsis_append_cons (by decide), hmarked]
        exact Bool.or_false _
    | false => exact (congrArg _ (List.append_nil _)).trans hmarked
  have hspace : hasEllipsis (' ' :: (p.type.toList ++ typeEnd p)) =
      hasEllipsis (p.type.toList ++ typeEnd p) := hasEllipsis_append_cons (by decide) [] _
  rw [hasEllipsis_append_cons (by decide), hspace, hend, hasEllipsis_eq_false h.name_plain]
  rfl

/-- The name ends at the colon. -/
theorem Declarable.name_split (h : p.Declarable) (rest : List Char) :
    let body := (p.name.toList ++ ':' :: rest).dropWhile Text.isAsciiBlank
    (body.takeWhile fun c => !endsName c) = p.name.toList ∧
      (body.dropWhile fun c => !endsName c) = ':' :: rest := by
  have hname : ∀ c ∈ p.name.toList, Text.isAsciiBlank c = false ∧ (!endsName c) = true := by
    intro c hc
    obtain ⟨hblank, hothers⟩ := h.name_solid c hc
    have hascii : Text.isAsciiBlank c = false := by
      by_contra hascii
      rw [Text.isBlank_of_isAsciiBlank (by simpa using hascii)] at hblank
      cases hblank
    refine ⟨hascii, ?_⟩
    rw [endsName, hascii, Bool.false_or, Bool.not_eq_true', beq_eq_false_iff_ne]
    rintro rfl
    exact hothers List.mem_cons_self
  have hbody : (p.name.toList ++ ':' :: rest).dropWhile Text.isAsciiBlank =
      p.name.toList ++ ':' :: rest := by
    cases hcs : p.name.toList with
    | nil => rfl
    | cons c cs => exact List.dropWhile_cons_of_neg (by simp [hname c (by simp [hcs])])
  rw [hbody]
  refine ⟨?_, ?_⟩
  · rw [List.takeWhile_append_of_pos fun c hc => (hname c hc).2]
    exact List.append_nil _
  · rw [List.dropWhile_append_of_pos fun c hc => (hname c hc).2]
    rfl

/-- The type is read without what ends it. -/
theorem Declarable.typeAfterName_eq (h : p.Declarable) :
    typeAfterName (':' :: ' ' :: (p.type.toList ++ typeEnd p)) = p.type.toList := by
  have hplain := hasEllipsis_eq_false h.type_plain
  have hmarked : dropEllipses (p.type.toList ++ if p.variadic then ellipsis else []) =
      p.type.toList := by
    cases p.variadic with
    | true => exact dropEllipses_append_ellipsis hplain
    | false => exact (congrArg _ (List.append_nil _)).trans (dropEllipses_eq_self hplain)
  refine (trim_dropEllipses_dropWhile (p.type.toList ++ typeEnd p)).trans ?_
  unfold typeEnd
  rw [← List.append_assoc]
  cases p.default?.isSome with
  | true =>
      rw [if_pos rfl, dropEllipses_append_cons (by decide), hmarked, Text.trim_append_blank,
        Text.trim_toList h.type_trimmed]
      exact List.forall_mem_singleton.mpr rfl
  | false =>
      rw [if_neg Bool.false_ne_true, List.append_nil, hmarked, Text.trim_toList h.type_trimmed]

/-- **Reading a declaration undoes writing it.** -/
theorem ofDeclaration_declaration (p : Param) (h : p.Declarable) :
    ofDeclaration p.declaration = .ok p := by
  obtain ⟨hname, hrest⟩ := h.name_split (' ' :: (p.type.toList ++ typeEnd p))
  have hhead : p.name.toList ++ [':', ' '] ++ (p.type.toList ++ typeEnd p) =
      p.name.toList ++ ':' :: ' ' :: (p.type.toList ++ typeEnd p) := by
    rw [List.append_assoc]
    rfl
  unfold ofDeclaration
  simp only [h.splitDefault_eq]
  rw [hhead, hname, hrest, h.typeAfterName_eq, h.hasEllipsis_head,
    dropEllipses_eq_self (hasEllipsis_eq_false h.name_plain), String.ofList_toList,
    String.ofList_toList, if_neg h.name_ne]
  cases hdefault : p.default? with
  | none =>
      show Except.ok (⟨p.name, p.type, none, p.variadic⟩ : Param) = _
      rw [← hdefault]
  | some x =>
      obtain ⟨htrimmed, hne⟩ := h.default_trimmed x hdefault
      have hspace : ∀ c ∈ [' '], Text.isBlank c = true := List.forall_mem_singleton.mpr rfl
      have hx : Text.trim (' ' :: x.toList) = x.toList :=
        (Text.trim_blank_append hspace x.toList).trans (Text.trim_toList htrimmed)
      simp only [Option.map_some, hx]
      split
      · rename_i hnil
        exact absurd (String.toList_eq_nil_iff.mp hnil) hne
      · rw [String.ofList_toList, ← hdefault]

/-- Brackets within brackets, an arrow and an `=` in the type, and a default value that has
all that ends a type. -/
theorem ofDeclaration_declaration_variadic :
    let p : Param := ⟨"f", "Map<K = V, Fn(A) -> B>", some "a <= \"...\" = b: c", true⟩
    p.Declarable ∧ ofDeclaration p.declaration = .ok p := by
  intro p
  have hname : p.name.toList = ['f'] := by decide +kernel
  have h : p.Declarable :=
    { name_ne := by decide
      name_solid := by
        rw [hname]
        exact List.forall_mem_singleton.mpr (by decide +kernel)
      name_plain := by decide +kernel
      type_trimmed := by decide +kernel
      type_plain := by decide +kernel
      type_enclosed := by decide +kernel
      default_trimmed := by
        rintro x ⟨⟩
        decide +kernel }
  exact ⟨h, ofDeclaration_declaration p h⟩

end Templating.Param
