import Mathlib.Data.List.Basic
import Templating.Scan.Code

/-!
# Looking ahead for a closing angle bracket

The search behind `<` reads on until it finds the `>` that closes it or meets a character
that cannot stand in type arguments. It goes by what it has read alone, so the `>` is at a
place that is determined. A search that begins in the middle of another one stands higher
by the brackets that are open there; so the `>` it finds comes before that of the outer one.
-/

namespace Templating.Scan

/-- Where the search stands: how many angle brackets and how many other brackets are open,
and what the last character was. -/
structure Search where
  deeper : Nat := 0
  nested : Nat := 0
  previous : Char := '<'

namespace Search

/-- The search finds a closing bracket. -/
def finds (l : Search) (cs : List Char) : Bool :=
  closesAngle l.deeper l.nested l.previous cs

/-- The character is the `>` that the search is for. -/
def ends (l : Search) (c : Char) : Bool :=
  c == '>' && l.previous != '-' && l.previous != '=' && l.deeper == 0

/-- The search behind one more character, if it goes on there. -/
def on? (l : Search) (c : Char) : Option Search :=
  if c = '<' then some ⟨l.deeper + 1, l.nested, c⟩
  else if c = '>' ∧ l.previous ≠ '-' ∧ l.previous ≠ '=' then
    if l.deeper = 0 then none else some ⟨l.deeper - 1, l.nested, c⟩
  else if c = '(' ∨ c = '[' then some ⟨l.deeper, l.nested + 1, c⟩
  else if c = ')' ∨ c = ']' then
    if l.nested = 0 then none else some ⟨l.deeper, l.nested - 1, c⟩
  else if (c = '&' ∨ c = '|') ∧ l.previous = c then none
  else if c = '"' ∨ c = ';' ∨ c = '\x7b' ∨ c = '\x7d' ∨ c = '\n' then none
  else some { l with previous := c }

/-- The search behind all the characters. -/
def through? (l : Search) (cs : List Char) : Option Search :=
  cs.foldlM on? l

/-- The search stands higher by so many open brackets. -/
def raise (l : Search) (deeper nested : Nat) : Search :=
  ⟨l.deeper + deeper, l.nested + nested, l.previous⟩

variable {l m : Search} {c : Char} {cs xs ys w w' x y z z' : List Char}

theorem finds_cons : l.finds (c :: cs) = match l.on? c with
    | some m => m.finds cs
    | none => l.ends c := by
  unfold finds on? ends
  rw [closesAngle]
  by_cases hopen : c = '<'
  · simp [hopen]
  · simp only [hopen, if_false]
    split_ifs <;> simp_all

theorem on?_ends (h : l.ends c = true) : l.on? c = none := by
  unfold ends at h
  unfold on?
  simp only [Bool.and_eq_true, beq_iff_eq, bne_iff_ne] at h
  simp [h]

/-- Under an open angle bracket the search goes on behind that `>`. -/
theorem exists_on?_raise (h : l.ends '>' = true) (deeper nested : Nat) :
    ∃ m, (l.raise (deeper + 1) nested).on? '>' = some m := by
  simp only [ends, Bool.and_eq_true, beq_iff_eq, bne_iff_ne] at h
  have hdeeper : (l.raise (deeper + 1) nested).deeper ≠ 0 := Nat.succ_ne_zero _
  unfold on?
  rw [if_neg (by decide), if_pos ⟨rfl, h.1.1.2, h.1.2⟩, if_neg hdeeper]
  exact ⟨_, rfl⟩

theorem on?_previous (h : l.on? c = some m) : m.previous = c := by
  unfold on? at h
  split_ifs at h <;> cases h <;> rfl

theorem on?_raise (h : l.on? c = some m) (deeper nested : Nat) :
    (l.raise deeper nested).on? c = some (m.raise deeper nested) := by
  obtain ⟨d, n, previous⟩ := l
  have hsame {d d' n n' : Nat} (hd : d = d') (hn : n = n') :
      some (Search.mk d n c) = some ⟨d', n', c⟩ := by
    rw [hd, hn]
  show on? ⟨d + deeper, n + nested, previous⟩ c = _
  unfold on? at h ⊢
  dsimp only at h ⊢
  split_ifs at h with hopen hclose hzero hbracket hbracket' hzero' hpair hother <;>
    cases h <;> dsimp only [raise]
  · rw [if_pos hopen]
    exact hsame (by omega) rfl
  · rw [if_neg hopen, if_pos hclose, if_neg (by omega)]
    exact hsame (by omega) rfl
  · rw [if_neg hopen, if_neg hclose, if_pos hbracket]
    exact hsame rfl (by omega)
  · rw [if_neg hopen, if_neg hclose, if_neg hbracket, if_pos hbracket', if_neg (by omega)]
    exact hsame rfl (by omega)
  · rw [if_neg hopen, if_neg hclose, if_neg hbracket, if_neg hbracket', if_neg hpair,
      if_neg hother]

theorem through?_cons :
    l.through? (c :: cs) = (l.on? c).bind fun m => m.through? cs := rfl

theorem through?_append :
    l.through? (xs ++ ys) = (l.through? xs).bind fun m => m.through? ys :=
  List.foldlM_append

theorem through?_raise (h : l.through? cs = some m) (deeper nested : Nat) :
    (l.raise deeper nested).through? cs = some (m.raise deeper nested) := by
  induction cs generalizing l with
  | nil =>
      obtain rfl := Option.some.inj h
      rfl
  | cons c cs ih =>
      obtain ⟨l', hon, hcs⟩ := Option.bind_eq_some_iff.mp h
      rw [through?_cons, on?_raise hon, Option.bind_some]
      exact ih hcs

/-- The last character that the search has seen. -/
theorem through?_previous (h : l.through? cs = some m) :
    (cs.reverse ++ [l.previous]).head? = some m.previous := by
  induction cs generalizing l with
  | nil =>
      obtain rfl := Option.some.inj h
      rfl
  | cons c cs ih =>
      obtain ⟨l', hon, hcs⟩ := Option.bind_eq_some_iff.mp h
      have hlast := ih hcs
      rw [on?_previous hon] at hlast
      rw [List.reverse_cons, List.append_assoc]
      rw [List.head?_append] at hlast ⊢
      cases hhead : cs.reverse.head? <;> simp_all

/-! ## The bracket that is found -/

theorem finds_append (h : l.through? xs = some m) : l.finds (xs ++ ys) = m.finds ys := by
  induction xs generalizing l with
  | nil =>
      obtain rfl := Option.some.inj h
      rfl
  | cons c xs ih =>
      obtain ⟨l', hon, hxs⟩ := Option.bind_eq_some_iff.mp h
      rw [List.cons_append, finds_cons, hon]
      exact ih hxs

theorem finds_end (h : l.ends '>' = true) (cs : List Char) : l.finds ('>' :: cs) = true := by
  rw [finds_cons, on?_ends h]
  exact h

/-- What is found is a `>` to which the search has come. -/
theorem exists_end (h : l.finds cs = true) : ∃ w z m, cs = w ++ '>' :: z ∧
    l.through? w = some m ∧ m.ends '>' = true := by
  induction cs generalizing l with
  | nil => cases h
  | cons c cs ih =>
      rw [finds_cons] at h
      cases hon : l.on? c with
      | none =>
          rw [hon] at h
          have hc : c = '>' := by
            simp only [ends, Bool.and_eq_true, beq_iff_eq] at h
            exact h.1.1.1
          subst hc
          exact ⟨[], cs, l, rfl, rfl, h⟩
      | some l' =>
          rw [hon] at h
          obtain ⟨w, z, m, rfl, hw, hm⟩ := ih h
          refine ⟨c :: w, z, m, rfl, ?_, hm⟩
          rw [through?_cons, hon]
          exact hw

end Search

variable {w w' x y z z' : List Char}

/-- The search behind `<` ends with the `>` right behind `w`. -/
def ClosedBehind (w : List Char) : Prop :=
  closesAngle 0 0 '<' (w ++ ['>']) = true ∧ closesAngle 0 0 '<' w = false

instance (w : List Char) : Decidable (ClosedBehind w) :=
  inferInstanceAs (Decidable (_ ∧ _))

theorem closedBehind_iff :
    ClosedBehind w ↔ ∃ m, ({} : Search).through? w = some m ∧ m.ends '>' = true := by
  constructor
  · rintro ⟨hfound, hbefore⟩
    obtain ⟨v, z, m, hv, hm, hends⟩ := Search.exists_end (l := {}) hfound
    rcases List.eq_nil_or_concat z with rfl | ⟨z, c, rfl⟩
    · obtain rfl := (List.append_inj' hv rfl).1
      exact ⟨m, hm, hends⟩
    · rw [List.concat_eq_append, ← List.cons_append, ← List.append_assoc] at hv
      rw [(List.append_inj' hv rfl).1] at hbefore
      have hfinds : ({} : Search).finds (v ++ '>' :: z) = true := by
        rw [Search.finds_append hm]
        exact Search.finds_end hends z
      exact absurd (hfinds.symm.trans hbefore) (by decide)
  · rintro ⟨m, hm, hends⟩
    refine ⟨(Search.finds_append hm).trans (Search.finds_end hends []), ?_⟩
    have hnone : ({} : Search).finds (w ++ []) = m.finds [] := Search.finds_append hm
    rw [List.append_nil] at hnone
    exact hnone

/-- **The search finds a closing bracket just when there is one at which it ends.** -/
theorem closesAngle_iff {cs : List Char} :
    closesAngle 0 0 '<' cs = true ↔ ∃ w z, cs = w ++ '>' :: z ∧ ClosedBehind w := by
  constructor
  · intro h
    obtain ⟨w, z, m, hcs, hm⟩ := Search.exists_end (l := {}) h
    exact ⟨w, z, hcs, closedBehind_iff.mpr ⟨m, hm⟩⟩
  · rintro ⟨w, z, rfl, hw⟩
    obtain ⟨m, hm, hends⟩ := closedBehind_iff.mp hw
    exact (Search.finds_append hm).trans (Search.finds_end hends z)

example : ClosedBehind "(b ".toList := by decide +kernel

/-- A closing bracket is no part of an arrow. -/
theorem ClosedBehind.last (h : ClosedBehind w) :
    (w.reverse ++ ['<']).head? ≠ some '-' ∧ (w.reverse ++ ['<']).head? ≠ some '=' := by
  obtain ⟨m, hm, hends⟩ := closedBehind_iff.mp h
  rw [Search.through?_previous hm]
  simp only [Search.ends, Bool.and_eq_true, bne_iff_ne] at hends
  simp [hends.1]

/-- **The bracket of a search lies within that of an outer one.** -/
theorem ClosedBehind.within (hw : ClosedBehind (x ++ '<' :: y)) (hw' : ClosedBehind w')
    (hsame : y ++ '>' :: z = w' ++ '>' :: z') : ∃ more, y = w' ++ '>' :: more := by
  obtain ⟨m, hm, hends⟩ := closedBehind_iff.mp hw
  obtain ⟨m', hm', hends'⟩ := closedBehind_iff.mp hw'
  rw [Search.through?_append] at hm
  obtain ⟨l, hx, hy⟩ := Option.bind_eq_some_iff.mp hm
  have hopen : l.on? '<' = some (Search.raise {} (l.deeper + 1) l.nested) := by
    simp [Search.on?, Search.raise]
  rw [Search.through?_cons, hopen, Option.bind_some] at hy
  -- The outer search goes on behind the bracket of the inner one.
  obtain ⟨n, hn⟩ := Search.exists_on?_raise hends' l.deeper l.nested
  have hbehind : (Search.raise {} (l.deeper + 1) l.nested).through? (w' ++ ['>']) = some n := by
    rw [Search.through?_append, Search.through?_raise hm', Option.bind_some,
      Search.through?_cons, hn]
    rfl
  have hsame' : y ++ '>' :: z = (w' ++ ['>']) ++ z' := by
    rw [hsame, List.append_assoc]
    rfl
  rcases List.append_eq_append_iff.mp hsame' with ⟨d, hd, hz⟩ | ⟨more, hmore, -⟩
  · cases d with
    | nil => exact ⟨[], (hd.trans (List.append_nil y)).symm⟩
    | cons c d =>
        obtain ⟨rfl, -⟩ := List.cons.inj hz
        rw [hd, Search.through?_append, hy, Option.bind_some, Search.through?_cons,
          Search.on?_ends hends] at hbehind
        cases hbehind
  · exact ⟨more, hmore.trans (by rw [List.append_assoc]; rfl)⟩

end Templating.Scan
