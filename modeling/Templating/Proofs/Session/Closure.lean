import Mathlib.Logic.Function.Iterate
import Mathlib.Logic.Relation
import Templating.Session.Request

/-!
# What a search finds

The search along references finds a template just when one or more references
lead to it. At every moment of the search what has been found can be reached,
and a template that is found but not pending has had all its references
followed; when nothing is pending any more, the templates found are closed
under references.
-/

namespace Templating.References

/-- `a` refers to `b`. -/
def Refers (r : References) (a b : Name) : Prop :=
  b ∈ r.of a

namespace Search

variable {r : References} {root name : Name}

theorem mem_found_find {s : Search} {x : Name} :
    x ∈ (s.find name).found.order ↔ x ∈ s.found.order ∨ x = name := by
  unfold find
  split
  · rename_i h
    rw [Dependencies.contains_iff] at h
    constructor
    · exact Or.inl
    · rintro (hx | rfl)
      · exact hx
      · exact h
  · exact Dependencies.mem_insert

theorem mem_pending_find {s : Search} {x : Name} :
    x ∈ (s.find name).pending ↔ x ∈ s.pending ∨ x = name ∧ x ∉ s.found.order := by
  unfold find
  split
  · rename_i h
    rw [Dependencies.contains_iff] at h
    constructor
    · exact Or.inl
    · rintro (hx | ⟨rfl, hx⟩)
      · exact hx
      · exact absurd h hx
  · rename_i h
    rw [Dependencies.contains_iff] at h
    rw [List.mem_cons]
    constructor
    · rintro (rfl | hx)
      · exact Or.inr ⟨rfl, h⟩
      · exact Or.inl hx
    · rintro (hx | ⟨rfl, -⟩)
      · exact Or.inr hx
      · exact Or.inl rfl

theorem mem_found_foldl {names : List Name} {s : Search} {x : Name} :
    x ∈ (names.foldl find s).found.order ↔ x ∈ s.found.order ∨ x ∈ names := by
  induction names generalizing s with
  | nil => simp
  | cons n names ih => rw [List.foldl_cons, ih, mem_found_find, List.mem_cons, or_assoc]

theorem mem_pending_foldl {names : List Name} {s : Search} {x : Name} :
    x ∈ (names.foldl find s).pending ↔ x ∈ s.pending ∨ x ∈ names ∧ x ∉ s.found.order := by
  induction names generalizing s with
  | nil => simp
  | cons n names ih =>
      rw [List.foldl_cons, ih, mem_pending_find, mem_found_find, List.mem_cons]
      -- A name that stands twice in the list is pending from its first place on.
      by_cases hn : x = n
      · simp [hn]
      · simp [hn]

/-- What holds in the course of a search from `root`. -/
structure Valid (r : References) (root : Name) (s : Search) : Prop where
  reached : ∀ n ∈ s.found.order, Relation.TransGen r.Refers root n
  pending : ∀ n ∈ s.pending, Relation.ReflTransGen r.Refers root n
  followed : ∀ n, n = root ∨ n ∈ s.found.order →
    n ∈ s.pending ∨ ∀ m, r.Refers n m → m ∈ s.found.order

theorem Valid.start (r : References) (root : Name) : Valid r root { pending := [root] } where
  reached n hn := by cases hn
  pending n hn := by
    rw [List.mem_singleton.mp hn]
  followed n hn := by
    rcases hn with rfl | hn
    · exact Or.inl (List.mem_singleton_self _)
    · cases hn

/-- Taking up a pending template keeps what holds. -/
theorem Valid.takeUp {found : Dependencies} {rest : List Name}
    (h : Valid r root ⟨found, name :: rest⟩) :
    Valid r root ((r.of name).foldl find ⟨found, rest⟩) := by
  have hname : Relation.ReflTransGen r.Refers root name := h.pending name (by simp)
  constructor
  · intro n hn
    rcases mem_found_foldl.mp hn with hn | hn
    · exact h.reached n hn
    · exact Relation.TransGen.tail' hname hn
  · intro n hn
    rcases mem_pending_foldl.mp hn with hn | ⟨hn, -⟩
    · exact h.pending n (List.mem_cons_of_mem _ hn)
    · exact hname.tail hn
  · intro n hn
    have hfound : ∀ m, m ∈ found.order → m ∈ ((r.of name).foldl find ⟨found, rest⟩).found.order :=
      fun m hm => mem_found_foldl.mpr (Or.inl hm)
    by_cases hnew : n = root ∨ n ∈ found.order
    · rcases h.followed n hnew with hpending | hall
      · rcases List.mem_cons.mp hpending with rfl | hpending
        · right
          intro m hm
          exact mem_found_foldl.mpr (Or.inr hm)
        · left
          exact mem_pending_foldl.mpr (Or.inl hpending)
      · right
        intro m hm
        exact hfound m (hall m hm)
    · -- Found just now, so it is pending.
      rw [not_or] at hnew
      left
      rcases hn with rfl | hn
      · exact absurd rfl hnew.1
      · rcases mem_found_foldl.mp hn with hn | hn
        · exact absurd hn hnew.2
        · exact mem_pending_foldl.mpr (Or.inr ⟨hn, hnew.2⟩)

end Search

theorem search_valid (r : References) {root : Name} (s : Search) (h : s.Valid r root) :
    ∃ t : Search, t.Valid r root ∧ t.pending = [] ∧ r.search s = t.found := by
  induction s using search.induct r with
  | case1 s hpending => exact ⟨s, h, hpending, by rw [search, hpending]⟩
  | case2 s name rest hpending ih =>
      obtain ⟨found, pending⟩ := s
      obtain rfl : pending = name :: rest := hpending
      obtain ⟨t, ht, hdone, heq⟩ := ih h.takeUp
      exact ⟨t, ht, hdone, by rw [search]; exact heq⟩

/-- **A search finds what one or more references lead to.** -/
theorem mem_closure {r : References} {root x : Name} :
    x ∈ (r.closure root).order ↔ Relation.TransGen r.Refers root x := by
  obtain ⟨t, ht, hdone, heq⟩ := r.search_valid { pending := [root] } (.start r root)
  unfold closure
  rw [heq]
  constructor
  · exact ht.reached x
  · intro h
    have hclosed : ∀ n, n = root ∨ n ∈ t.found.order → ∀ m, r.Refers n m → m ∈ t.found.order := by
      intro n hn
      rcases ht.followed n hn with hpending | hall
      · rw [hdone] at hpending
        cases hpending
      · exact hall
    induction h with
    | single hstep => exact hclosed root (Or.inl rfl) _ hstep
    | tail _ hstep ih => exact hclosed _ (Or.inr ih) _ hstep

/-! ## How long a search takes -/

namespace Search

/-- Take up the template that was found last, if one is pending. -/
def next (r : References) (s : Search) : Search :=
  match s.pending with
  | [] => s
  | name :: rest => (r.of name).foldl find ⟨s.found, rest⟩

/-- A template is pending once for each time that it is found. -/
theorem length_find (s : Search) (name : Name) :
    (s.find name).found.length + s.pending.length =
      s.found.length + (s.find name).pending.length := by
  unfold find
  split
  · rfl
  · rename_i hnew
    have hnew : name ∉ s.found.order := by
      rwa [Dependencies.contains_iff] at hnew
    have hlength : (s.found.insert name).length = s.found.length + 1 := by
      unfold Dependencies.insert
      rw [dif_neg hnew]
      exact List.length_append
    rw [hlength, List.length_cons]
    omega

theorem length_foldl_find (s : Search) (names : List Name) :
    (names.foldl find s).found.length + s.pending.length =
      s.found.length + (names.foldl find s).pending.length := by
  induction names generalizing s with
  | nil => rfl
  | cons n names ih =>
      have hfirst := s.length_find n
      have hrest := ih (s.find n)
      rw [List.foldl_cons]
      omega

end Search

/-- A search takes up what is pending and all that it still finds, each once. -/
theorem search_rounds (r : References) (s : Search) :
    ∃ rounds, rounds + s.found.length = (r.search s).length + s.pending.length ∧
      (Search.next r)^[rounds] s = ⟨r.search s, []⟩ := by
  induction s using search.induct r with
  | case1 s hpending =>
      obtain ⟨found, pending⟩ := s
      obtain rfl : pending = [] := hpending
      refine ⟨0, ?_, ?_⟩
      · rw [search]
        simp
      · rw [search]
        rfl
  | case2 s name rest hpending ih =>
      obtain ⟨found, pending⟩ := s
      obtain rfl : pending = name :: rest := hpending
      obtain ⟨rounds, hlength, hrounds⟩ := ih
      have hfound := Search.length_foldl_find ⟨found, rest⟩ (r.of name)
      have hsearch : r.search ⟨found, name :: rest⟩ =
          r.search ((r.of name).foldl Search.find ⟨found, rest⟩) := by
        rw [search]
      refine ⟨rounds + 1, ?_, ?_⟩
      · rw [hsearch, List.length_cons]
        simp only at hfound hlength ⊢
        omega
      · rw [Function.iterate_succ_apply, hsearch]
        exact hrounds

/-- **A search ends** on every graph, however its references run in cycles: after as
many rounds as it finds templates, and one for the template it starts from. -/
theorem closure_rounds (r : References) (root : Name) :
    (Search.next r)^[(r.closure root).length + 1] { pending := [root] } =
      { found := r.closure root, pending := [] } := by
  obtain ⟨rounds, hlength, hrounds⟩ := r.search_rounds { pending := [root] }
  have hclosure : rounds = (r.closure root).length + 1 := hlength
  rwa [← hclosure]

end Templating.References
