import Templating.Proofs.Event.Nesting
import Templating.Proofs.Text.Everywhere

/-!
# Branches of conditions

A condition may have other branches under conditions of their own, and behind them
one branch for all other cases. `branches` reads off a stream which branches each
open condition has had, and `Grammatical` says of every condition that has ended
that its branches are of that form. In a stream whose blocks are all closed that is
so just when no branch comes behind the one for all other cases: `grammatical_iff`.
-/

namespace Templating.Event

/-! ## The branches of open conditions -/

inductive Branch where
  /-- Under a condition of its own. -/
  | elseIf
  /-- For all other cases. -/
  | otherwise
deriving DecidableEq, Repr

/-- The branches of a condition may be these: any number under conditions of their
own, and then at most one for all other cases. -/
def Regular (word : List Branch) : Prop :=
  ∃ n, word = List.replicate n .elseIf ∨ word = List.replicate n .elseIf ++ [.otherwise]

theorem regular_iff {word : List Branch} : Regular word ↔ ∃ n ∈ List.range (word.length + 1),
    word = List.replicate n .elseIf ∨ word = List.replicate n .elseIf ++ [.otherwise] := by
  constructor
  · rintro ⟨n, h⟩
    have hn : n ≤ word.length := by
      rcases h with rfl | rfl <;> simp
    exact ⟨n, List.mem_range.mpr (Nat.lt_succ_of_le hn), h⟩
  · rintro ⟨n, -, h⟩
    exact ⟨n, h⟩

instance (word : List Branch) : Decidable (Regular word) :=
  decidable_of_iff _ regular_iff.symm

/-- What the open conditions have had of branches after one more event, innermost
first. -/
def tally (words : List (List Branch)) (e : Event) : List (List Branch) :=
  match e.body, words with
  | .conditionBegin _, words => [] :: words
  | .conditionElseIf _, word :: words => (word ++ [.elseIf]) :: words
  | .conditionElse, word :: words => (word ++ [.otherwise]) :: words
  | .conditionEnd, _ :: words => words
  | _, words => words

/-- The branches that each condition has had which a stream leaves open. -/
def branches (es : List Event) : List (List Branch) :=
  es.foldl tally []

/-- Every condition that has ended has had branches as it may. -/
def Grammatical : List Event → Prop :=
  Everywhere fun before e _ => e.body = .conditionEnd →
    ∃ word ∈ (branches before).head?, Regular word

instance (es : List Event) : Decidable (Grammatical es) :=
  inferInstanceAs (Decidable (Everywhere _ es))

/-- No branch comes behind the one for all other cases. -/
def Orderly : List Event → Prop :=
  Everywhere fun before e _ => e.body.role = .branches →
    ∀ word ∈ (branches before).head?, .otherwise ∉ word

@[simp] theorem branches_snoc (es : List Event) (e : Event) :
    branches (es ++ [e]) = tally (branches es) e := by
  simp [branches]

/-- The event neither begins nor ends a condition, nor goes on with one. -/
def Body.isApart : Body → Bool
  | .conditionBegin _ | .conditionElseIf _ | .conditionElse | .conditionEnd => false
  | _ => true

theorem tally_of_isApart {e : Event} (h : e.body.isApart = true) (words : List (List Branch)) :
    tally words e = words := by
  obtain ⟨line, depth, body⟩ := e
  cases body <;> first | rfl | exact absurd h (by simp [Body.isApart])

/-- An event that is apart from conditions opens and closes other blocks, if any. -/
theorem role_of_isApart {body : Body} (h : body.isApart = true) :
    body.role ≠ .branches ∧ body.role ≠ .opens .condition ∧ body.role ≠ .closes .condition := by
  cases body with
  | call kind reference arguments => cases kind <;> simp [Body.role]
  | _ => first | (simp [Body.role]; done) | exact absurd h (by simp [Body.isApart])

/-! ## Regular branches -/

theorem eq_replicate_of_not_mem {word : List Branch} (h : .otherwise ∉ word) :
    word = List.replicate word.length .elseIf := by
  refine List.eq_replicate_iff.mpr ⟨rfl, ?_⟩
  intro branch hbranch
  cases branch with
  | elseIf => rfl
  | otherwise => exact absurd hbranch h

/-- One more branch is as it may be when there was none for all other cases. -/
theorem regular_snoc {word : List Branch} {branch : Branch} :
    Regular (word ++ [branch]) ↔ .otherwise ∉ word := by
  have hnone (n : Nat) : Branch.otherwise ∉ List.replicate n Branch.elseIf := by
    simp [List.mem_replicate]
  constructor
  · rintro ⟨n, h | h⟩ hmem
    · exact hnone n (h ▸ List.mem_append_left _ hmem)
    · rw [(List.append_inj' h rfl).1] at hmem
      exact hnone n hmem
  · intro h
    have hword := eq_replicate_of_not_mem h
    cases branch with
    | elseIf =>
        refine ⟨word.length + 1, Or.inl ?_⟩
        rw [List.replicate_succ', ← hword]
    | otherwise =>
        refine ⟨word.length, Or.inr ?_⟩
        rw [← hword]

theorem regular_nil : Regular [] :=
  ⟨0, Or.inl rfl⟩

/-! ## Grammatical streams -/

/-- How many conditions are open. -/
def conditions (opened : List Opening) : Nat :=
  opened.countP fun o => o.block == .condition

theorem conditions_follow_of_isApart {opened opened' : List Opening} {e : Event}
    (he : e.body.isApart = true) (h : follow opened e = some opened') :
    conditions opened' = conditions opened := by
  obtain ⟨-, hopens, hcloses⟩ := role_of_isApart he
  unfold follow at h
  split at h
  · rw [Option.some.inj h]
  · rename_i block hrole
    split at h
    · cases h
    · obtain rfl := Option.some.inj h
      refine List.countP_cons_of_neg ?_
      intro hblock
      obtain rfl : block = .condition := beq_iff_eq.mp hblock
      exact hopens hrole
  · rename_i hrole
    exact absurd hrole (role_of_isApart he).1
  · rename_i block hrole
    split at h
    · rename_i hhead
      obtain ⟨rest, rfl⟩ := List.head?_eq_some_iff.mp hhead
      obtain rfl := Option.some.inj h
      refine (List.countP_cons_of_neg ?_).symm
      intro hblock
      obtain rfl : block = .condition := beq_iff_eq.mp hblock
      exact hcloses hrole
    · cases h

/-- A branch belongs to the innermost condition, so its word is there. -/
theorem exists_word {es : List Event} {opened : List Opening}
    (hlength : (branches es).length = conditions opened) {depth : Nat}
    (hhead : opened.head? = some ⟨.condition, depth⟩) :
    ∃ word words, branches es = word :: words := by
  obtain ⟨rest, rfl⟩ := List.head?_eq_some_iff.mp hhead
  refine List.exists_cons_of_length_pos ?_
  rw [hlength, conditions, List.countP_cons_of_pos rfl]
  exact Nat.succ_pos _

/-- There are as many words of branches as conditions are open. -/
theorem length_branches {es : List Event} {opened : List Opening}
    (h : openAfter es = some opened) : (branches es).length = conditions opened := by
  induction es using List.reverseRecOn generalizing opened with
  | nil =>
      obtain rfl := Option.some.inj h
      rfl
  | append_singleton es e ih =>
      rw [openAfter_snoc] at h
      obtain ⟨before, hes, he⟩ := Option.bind_eq_some_iff.mp h
      have hlength := ih hes
      rw [branches_snoc]
      by_cases hapart : e.body.isApart = true
      · rw [tally_of_isApart hapart, hlength, conditions_follow_of_isApart hapart he]
      · obtain ⟨line, depth, body⟩ := e
        cases body with
        | conditionBegin code =>
            obtain rfl := Option.some.inj he
            simp [tally, hlength, conditions]
        | conditionElseIf | conditionElse =>
            obtain ⟨hhead, hsame⟩ := Option.ite_none_right_eq_some.mp he
            obtain ⟨word, words, hwords⟩ := exists_word hlength hhead
            rw [← Option.some.inj hsame, ← hlength, hwords]
            rfl
        | conditionEnd =>
            obtain ⟨hhead, htail⟩ := Option.ite_none_right_eq_some.mp he
            obtain ⟨word, words, hwords⟩ := exists_word hlength hhead
            obtain ⟨rest, rfl⟩ := List.head?_eq_some_iff.mp hhead
            rw [hwords, conditions, List.countP_cons_of_pos rfl] at hlength
            rw [← Option.some.inj htail, hwords]
            exact Nat.succ.inj hlength
        | _ => exact absurd rfl hapart

/-- The conditions that have ended, and those that are open, have had branches as they
may, just when no branch comes behind the one for all other cases. -/
theorem orderly_iff {es : List Event} {opened : List Opening} (h : openAfter es = some opened) :
    Orderly es ↔ Grammatical es ∧ ∀ word ∈ branches es, Regular word := by
  induction es using List.reverseRecOn generalizing opened with
  | nil => exact ⟨fun _ => ⟨everywhere_nil _, by simp [branches]⟩, fun _ => everywhere_nil _⟩
  | append_singleton es e ih =>
      rw [openAfter_snoc] at h
      obtain ⟨before, hes, he⟩ := Option.bind_eq_some_iff.mp h
      have hlength := length_branches hes
      unfold Orderly Grammatical at ih ⊢
      rw [everywhere_snoc, everywhere_snoc, ih hes, branches_snoc]
      by_cases hapart : e.body.isApart = true
      · have hend : e.body ≠ .conditionEnd := by
          intro hbody
          rw [hbody] at hapart
          cases hapart
        rw [tally_of_isApart hapart]
        simp [(role_of_isApart hapart).1, hend]
      · obtain ⟨line, depth, body⟩ := e
        -- A word is regular with one more branch just when it had no last branch yet, and
        -- then it was regular before.
        have hsnoc (word : List Branch) (branch : Branch) :
            Regular word ∧ .otherwise ∉ word ↔ Regular (word ++ [branch]) := by
          rw [regular_snoc, and_iff_right_iff_imp]
          intro hword
          exact ⟨word.length, Or.inl (eq_replicate_of_not_mem hword)⟩
        cases body with
        | conditionBegin code => simp [tally, Body.role, regular_nil]
        | conditionElseIf | conditionElse =>
            obtain ⟨hhead, -⟩ := Option.ite_none_right_eq_some.mp he
            obtain ⟨word, words, hwords⟩ := exists_word hlength hhead
            simp [tally, Body.role, hwords, ← hsnoc]
            tauto
        | conditionEnd =>
            obtain ⟨hhead, -⟩ := Option.ite_none_right_eq_some.mp he
            obtain ⟨word, words, hwords⟩ := exists_word hlength hhead
            simp [tally, Body.role, hwords]
            tauto
        | _ => exact absurd rfl hapart

/-- **Where all blocks are closed, a stream is grammatical just when no branch comes
behind the one for all other cases.** -/
theorem grammatical_iff {es : List Event} (h : openAfter es = some []) :
    Grammatical es ↔ Orderly es := by
  have hnone : branches es = [] := List.length_eq_zero_iff.mp (length_branches h)
  rw [orderly_iff h, hnone]
  simp

end Templating.Event
