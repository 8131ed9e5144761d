import Templating.Dependencies
import Templating.Param
import Templating.SourceUnit
import Templating.Table

/-!
# Requests

What is known in the course of one compile request: the units so far, which
template has which place, and which templates refer to which. The templates
that can be reached along such references are found by depth-first search; each
is taken up once, so the search ends whatever cycles there are.
-/

namespace Templating

/-- Which templates each template refers to directly. -/
abbrev References : Type := Table Name Dependencies

namespace References

/-- The templates that a template refers to directly. -/
def of (r : References) (name : Name) : List Name :=
  ((r.get? name).getD .empty).order

/-- Take note that `caller` refers to `callee`. -/
def add (r : References) (caller callee : Name) : References :=
  r.set caller (((r.get? caller).getD .empty).insert callee)

/-- All templates that are referred to, with repetitions. -/
def all (r : References) : List Name :=
  r.entries.flatMap fun e => e.2.order

theorem mem_all_of_mem_of {r : References} {name callee : Name} (h : callee ∈ r.of name) :
    callee ∈ r.all := by
  unfold of at h
  cases hg : r.get? name with
  | none => simp [hg, Dependencies.empty] at h
  | some d =>
      simp only [hg, Option.getD_some] at h
      simp only [Table.get?, Option.map_eq_some_iff] at hg
      obtain ⟨e, he, rfl⟩ := hg
      exact List.mem_flatMap.2 ⟨e, List.mem_of_find?_eq_some he, h⟩

/-- How many references lead to templates not found yet. -/
def unseen (r : References) (found : Dependencies) : Nat :=
  r.all.countP fun n => !found.contains n

/-- A search: what was found, and what is still to be taken up, last found
first. -/
structure Search where
  found : Dependencies := .empty
  pending : List Name

/-- Take note of a template that is referred to. -/
def Search.find (s : Search) (name : Name) : Search :=
  if s.found.contains name then s
  else ⟨s.found.insert name, name :: s.pending⟩

/-- What bounds the rest of a search. -/
def Search.bound (r : References) (s : Search) : Nat :=
  r.unseen s.found + s.pending.length

theorem countP_insert_lt {l : List Name} {found : Dependencies} {name : Name}
    (hl : name ∈ l) (hn : found.contains name = false) :
    (l.countP fun n => !(found.insert name).contains n) <
      l.countP fun n => !found.contains n := by
  have step : ∀ n, (!(found.insert name).contains n) = true → (!found.contains n) = true := by
    intro n h
    simp only [Bool.not_eq_true', Dependencies.contains, decide_eq_false_iff_not,
      Dependencies.mem_insert, not_or] at h ⊢
    exact h.1
  have self : (found.insert name).contains name = true := by
    simp [Dependencies.contains]
  induction l with
  | nil => simp at hl
  | cons a l ih =>
      have le : (l.countP fun n => !(found.insert name).contains n) ≤
          l.countP fun n => !found.contains n :=
        List.countP_mono_left fun n _ => step n
      simp only [List.countP_cons]
      rcases List.mem_cons.1 hl with rfl | hl
      · simp only [self, hn, Bool.not_true, Bool.not_false, if_true]
        simp
        omega
      · have hlt := ih hl
        have hle : (if (!(found.insert name).contains a) = true then 1 else 0) ≤
            if (!found.contains a) = true then 1 else 0 := by
          by_cases h : (!(found.insert name).contains a) = true
          · simp [h, step a h]
          · simp [h]
        omega

theorem Search.bound_find_le (r : References) (s : Search) {name : Name} (h : name ∈ r.all) :
    (s.find name).bound r ≤ s.bound r := by
  unfold find
  split
  · exact Nat.le_refl _
  · rename_i hn
    have := countP_insert_lt h (by simpa using hn)
    simp only [bound, unseen, List.length_cons]
    omega

theorem Search.bound_foldl_find_le (r : References) (s : Search) (names : List Name)
    (h : ∀ n ∈ names, n ∈ r.all) : (names.foldl find s).bound r ≤ s.bound r := by
  induction names generalizing s with
  | nil => exact Nat.le_refl _
  | cons n names ih =>
      exact Nat.le_trans (ih _ fun m hm => h m (by simp [hm]))
        (bound_find_le r s (h n (by simp)))

/-- Go on until nothing is pending. -/
def search (r : References) (s : Search) : Dependencies :=
  match _h : s.pending with
  | [] => s.found
  | name :: rest => search r ((r.of name).foldl Search.find ⟨s.found, rest⟩)
termination_by s.bound r
decreasing_by
  refine Nat.lt_of_le_of_lt
    (Search.bound_foldl_find_le r ⟨s.found, rest⟩ _ fun n hn => mem_all_of_mem_of hn) ?_
  simp [Search.bound, _h]

/-- Every template that can be reached from `name` along references. -/
def closure (r : References) (name : Name) : Dependencies :=
  r.search { pending := [name] }

end References

structure Request where
  units : Array SourceUnit := #[]
  /-- Which template has an identifier in a target. -/
  reserved : Table (String × Target) Name := {}
  references : References := {}
  /-- The parameters declared in the course of the request. -/
  params : Table Name (List Param) := {}

end Templating
