import Templating.Literal.Escape

/-!
# Text sealed in literals

Between the quotes of a literal, a character either belongs to an escape or
stands for itself. Of an escaped text only characters stand for themselves that
mean nothing of their own there, so a reader of the code sees the same code
whatever text a literal has.
-/

namespace Templating.Literal

/-- The characters that mean something of their own between the quotes of a
literal: the quote that ends it, the backslash of an escape, line breaks, and
what begins a template. -/
def active : Target → List Char
  | .rust => ['"', '\\', '\n', '\r']
  | .kotlin => ['"', '\\', '\n', '\r', '$']

/-- The characters that no backslash stands before and that begin no escape. A
backslash with nothing behind it stands for itself. -/
def bare : List Char → List Char
  | [] => []
  | [c] => [c]
  | c :: next :: cs => if c = '\\' then bare cs else c :: bare (next :: cs)

@[simp] theorem bare_nil : bare [] = [] := rfl

@[simp] theorem bare_escaped (c : Char) (cs : List Char) : bare ('\\' :: c :: cs) = bare cs := rfl

theorem bare_cons {c : Char} (h : c ≠ '\\') (cs : List Char) : bare (c :: cs) = c :: bare cs := by
  cases cs with
  | nil => rfl
  | cons next cs => exact if_neg h

theorem bare_append {xs : List Char} (h : '\\' ∉ xs) (rest : List Char) :
    bare (xs ++ rest) = xs ++ bare rest := by
  induction xs with
  | nil => rfl
  | cons c xs ih =>
      rw [List.mem_cons, not_or] at h
      obtain ⟨hc, hxs⟩ := h
      rw [List.cons_append, bare_cons (Ne.symm hc), ih hxs, List.cons_append]

/-! ## Digits -/

theorem digitChar_not_mem_active (t : Target) (n : Nat) : Nat.digitChar n ∉ active t := by
  by_cases hn : n < 16
  · have hall : ∀ m < 16, Nat.digitChar m ∉ active t := by cases t <;> decide
    exact hall n hn
  · have hother : Nat.digitChar n = '*' := by
      unfold Nat.digitChar
      simp only [show ∀ m < 16, n ≠ m from fun m hm => by omega, Nat.reduceLT, ↓reduceIte]
    rw [hother]
    cases t <;> decide

theorem toDigits_inactive (t : Target) {base : Nat} (hbase : 1 < base) (n : Nat) :
    ∀ c ∈ Nat.toDigits base n, c ∉ active t := by
  induction n using Nat.strongRecOn with
  | ind n ih =>
      rw [Nat.toDigits_eq_if hbase]
      split
      · rw [List.forall_mem_singleton]
        exact digitChar_not_mem_active t n
      · rename_i hn
        rw [List.forall_mem_append, List.forall_mem_singleton]
        exact ⟨ih (n / base) (Nat.div_lt_self (by omega) hbase), digitChar_not_mem_active t _⟩

theorem fourDigits_inactive (t : Target) (n : Nat) : ∀ c ∈ fourDigits n, c ∉ active t := by
  intro c hc
  obtain ⟨digit, -, rfl⟩ := List.mem_map.mp hc
  exact digitChar_not_mem_active t digit

/-! ## Escaped text -/

theorem backslash_not_mem {t : Target} {xs : List Char} (h : ∀ c ∈ xs, c ∉ active t) :
    '\\' ∉ xs := by
  intro hmem
  exact h _ hmem (by cases t <;> decide)

/-- What an escape has bare is inactive, wherever it stands. -/
def Sealed (t : Target) (escaped : List Char) : Prop :=
  ∃ xs, (∀ x ∈ xs, x ∉ active t) ∧ ∀ rest, bare (escaped ++ rest) = xs ++ bare rest

namespace Sealed

variable {t : Target} {xs ys : List Char}

theorem nil (t : Target) : Sealed t [] :=
  ⟨[], by simp, fun _ => rfl⟩

theorem append (hxs : Sealed t xs) (hys : Sealed t ys) : Sealed t (xs ++ ys) := by
  obtain ⟨as, has, hxs⟩ := hxs
  obtain ⟨bs, hbs, hys⟩ := hys
  refine ⟨as ++ bs, List.forall_mem_append.mpr ⟨has, hbs⟩, ?_⟩
  intro rest
  rw [List.append_assoc, hxs, hys, List.append_assoc]

theorem flatMap {α : Type} {f : α → List Char} (h : ∀ a, Sealed t (f a)) (as : List α) :
    Sealed t (as.flatMap f) := by
  induction as with
  | nil => exact nil t
  | cons a as ih =>
      rw [List.flatMap_cons]
      exact (h a).append ih

theorem of_inactive (h : ∀ x ∈ xs, x ∉ active t) : Sealed t xs :=
  ⟨xs, h, bare_append (backslash_not_mem h)⟩

theorem pair (t : Target) (c : Char) : Sealed t ['\\', c] :=
  ⟨[], by simp, fun _ => rfl⟩

/-- Nothing active is bare in a sealed text. -/
theorem bare (h : Sealed t xs) : ∀ c ∈ Literal.bare xs, c ∉ active t := by
  obtain ⟨as, has, hxs⟩ := h
  have := hxs []
  rw [List.append_nil, bare_nil, List.append_nil] at this
  rwa [this]

end Sealed

theorem sealed_escapeBraced (c : Char) : Sealed .rust (escapeBraced c) := by
  unfold escapeBraced
  split
  case h_7 _ hbackslash hquote hnewline hreturn _ _ =>
    split
    · have hbody : ∀ x ∈ ['{'] ++ Nat.toDigits 16 c.toNat ++ ['}'], x ∉ active .rust := by
        rw [List.forall_mem_append, List.forall_mem_append]
        exact ⟨⟨by simp [active], toDigits_inactive .rust (by decide) _⟩, by simp [active]⟩
      exact (Sealed.pair .rust 'u').append (Sealed.of_inactive hbody)
    · refine Sealed.of_inactive ?_
      simp only [active, List.mem_cons, List.not_mem_nil, or_false, not_or, forall_eq]
      exact ⟨hquote, hbackslash, hnewline, hreturn⟩
  all_goals exact Sealed.pair .rust _

theorem sealed_escapeUnits (c : Char) : Sealed .kotlin (escapeUnits c) := by
  unfold escapeUnits
  split
  case h_8 _ hbackslash hquote hdollar hnewline hreturn _ _ =>
    split
    · have hunit (unit : Nat) : Sealed .kotlin ('\\' :: 'u' :: fourDigits unit) :=
        (Sealed.pair .kotlin 'u').append (Sealed.of_inactive (fourDigits_inactive .kotlin unit))
      exact Sealed.flatMap hunit (codeUnits c)
    · refine Sealed.of_inactive ?_
      simp only [active, List.mem_cons, List.not_mem_nil, or_false, not_or, forall_eq]
      exact ⟨hquote, hbackslash, hnewline, hreturn, hdollar⟩
  all_goals exact Sealed.pair .kotlin _

/-- **Nothing active is bare in an escaped text.** -/
theorem sealed_escape (t : Target) (text : String) : Sealed t (escape t text).toList := by
  rw [escape, String.toList_ofList]
  refine Sealed.flatMap ?_ text.toList
  cases t with
  | rust => exact sealed_escapeBraced
  | kotlin => exact sealed_escapeUnits

/-! ## Code without the insides of its literals -/

/-- Where a reader of code stands: outside literals, in one, or behind a
backslash in one. -/
inductive Place where
  | code
  | literal
  | backslash

/-- The code with the insides of its literals left out. Everything active but a
backslash leads out of a literal: its quote ends it, a line break cuts it off,
and a template in it is code again. -/
def skeleton (t : Target) : Place → List Char → List Char
  | _, [] => []
  | .code, c :: cs => c :: skeleton t (if c = '"' then .literal else .code) cs
  | .literal, c :: cs =>
      if c = '\\' then skeleton t .backslash cs
      else if c ∈ active t then c :: skeleton t .code cs
      else skeleton t .literal cs
  | .backslash, _ :: cs => skeleton t .literal cs

theorem skeleton_append {xs : List Char} (h : '"' ∉ xs) (t : Target) (rest : List Char) :
    skeleton t .code (xs ++ rest) = xs ++ skeleton t .code rest := by
  induction xs with
  | nil => rfl
  | cons c xs ih =>
      rw [List.mem_cons, not_or] at h
      obtain ⟨hc, hxs⟩ := h
      rw [List.cons_append, skeleton, if_neg (Ne.symm hc), ih hxs, List.cons_append]

/-- A reader that is in a literal stays there while nothing active is bare. -/
theorem skeleton_literal {t : Target} {xs : List Char} (h : ∀ c ∈ bare xs, c ∉ active t)
    (rest : List Char) : skeleton t .literal (xs ++ rest) = skeleton t .literal rest := by
  have hbackslash : '\\' ∈ active t := by cases t <;> decide
  fun_induction bare xs with
  | case1 => rfl
  | case2 c =>
      have hc : c ∉ active t := h c (List.mem_singleton_self c)
      rw [List.singleton_append, skeleton, if_neg (by rintro rfl; exact hc hbackslash), if_neg hc]
  | case3 next cs ih =>
      rw [List.cons_append, List.cons_append, skeleton, if_pos rfl, skeleton]
      exact ih h
  | case4 c next cs hc ih =>
      obtain ⟨hinactive, hrest⟩ := List.forall_mem_cons.mp h
      rw [List.cons_append, skeleton, if_neg hc, if_neg hinactive]
      exact ih hrest

/-- **Of a literal in code only the quotes are seen**, and the code behind it is
code. -/
theorem skeleton_quote (t : Target) (text : String) (rest : List Char) :
    skeleton t .code ((quote t text).toList ++ rest) = '"' :: '"' :: skeleton t .code rest := by
  have hquote : (quote t text).toList ++ rest =
      '"' :: ((escape t text).toList ++ '"' :: rest) := by
    simp [quote, String.toList_append]
  have hend : skeleton t .literal ('"' :: rest) = '"' :: skeleton t .code rest := by
    rw [skeleton, if_neg (by decide), if_pos (by cases t <;> decide)]
  rw [hquote, skeleton, if_pos rfl, skeleton_literal (sealed_escape t text).bare, hend]

-- What is not escaped would be seen.
example : skeleton .kotlin .code "\"a$b c".toList = "\"$b c".toList := by decide

end Templating.Literal
