/-!
# Tables

A table has at most one value for a key. It is seen through `get?`: setting a
key changes what is found there and nothing else, and so does erasing it.
-/

namespace Templating

structure Table (κ ν : Type) where
  entries : List (κ × ν) := []

namespace Table

variable {κ ν : Type} [DecidableEq κ]

def get? (t : Table κ ν) (k : κ) : Option ν :=
  (t.entries.find? fun e => e.1 = k).map Prod.snd

def erase (t : Table κ ν) (k : κ) : Table κ ν :=
  ⟨t.entries.filter fun e => e.1 ≠ k⟩

def set (t : Table κ ν) (k : κ) (v : ν) : Table κ ν :=
  ⟨(k, v) :: (t.erase k).entries⟩

def contains (t : Table κ ν) (k : κ) : Bool :=
  (t.get? k).isSome

def keys (t : Table κ ν) : List κ :=
  t.entries.map Prod.fst

def size (t : Table κ ν) : Nat :=
  t.entries.length

@[simp] theorem get?_empty (k : κ) : ({} : Table κ ν).get? k = none := rfl

theorem find?_filter_ne (l : List (κ × ν)) (k j : κ) :
    (l.filter fun e => e.1 ≠ k).find? (fun e => e.1 = j) =
      if j = k then none else l.find? fun e => e.1 = j := by
  induction l with
  | nil => simp
  | cons e l ih =>
      by_cases hk : e.1 = k <;> by_cases hj : e.1 = j <;> by_cases h : j = k <;>
        simp_all

theorem get?_erase (t : Table κ ν) (k j : κ) :
    (t.erase k).get? j = if j = k then none else t.get? j := by
  unfold get? erase
  rw [find?_filter_ne]
  split <;> rfl

theorem get?_set (t : Table κ ν) (k j : κ) (v : ν) :
    (t.set k v).get? j = if j = k then some v else t.get? j := by
  by_cases h : j = k
  · simp [get?, set, h]
  · have : (k = j) = False := by simp [Ne.symm h]
    simp only [get?, set, List.find?_cons, this, decide_false, h, if_false]
    exact (get?_erase t k j).trans (if_neg h)

@[simp] theorem get?_set_self (t : Table κ ν) (k : κ) (v : ν) :
    (t.set k v).get? k = some v := by
  simp [get?_set]

/-- No key has two values. -/
def Distinct (t : Table κ ν) : Prop :=
  t.keys.Nodup

omit [DecidableEq κ] in
theorem distinct_empty : ({} : Table κ ν).Distinct :=
  List.nodup_nil

theorem Distinct.set {t : Table κ ν} (h : t.Distinct) (k : κ) (v : ν) : (t.set k v).Distinct := by
  unfold Distinct keys at h ⊢
  refine List.nodup_cons.2 ⟨?_, h.sublist (List.filter_sublist.map _)⟩
  intro hk
  obtain ⟨e, he, hek⟩ := List.mem_map.1 hk
  exact of_decide_eq_true (List.mem_filter.1 he).2 hek

theorem mem_of_get? {t : Table κ ν} {k : κ} {v : ν} (h : t.get? k = some v) :
    (k, v) ∈ t.entries := by
  simp only [get?, Option.map_eq_some_iff] at h
  obtain ⟨e, he, rfl⟩ := h
  have hk : e.1 = k := by simpa using List.find?_some he
  subst hk
  exact List.mem_of_find?_eq_some he

theorem mem_keys_of_get? {t : Table κ ν} {k : κ} (h : (t.get? k).isSome = true) : k ∈ t.keys := by
  obtain ⟨v, hv⟩ := Option.isSome_iff_exists.1 h
  exact List.mem_map.2 ⟨(k, v), mem_of_get? hv, rfl⟩

theorem Distinct.get?_eq_some_iff {t : Table κ ν} (h : t.Distinct) {k : κ} {v : ν} :
    t.get? k = some v ↔ (k, v) ∈ t.entries := by
  refine ⟨mem_of_get?, fun hmem => ?_⟩
  obtain ⟨entries⟩ := t
  unfold Distinct keys at h
  simp only [get?] at h hmem ⊢
  induction entries with
  | nil => cases hmem
  | cons e entries ih =>
      obtain ⟨hfresh, hrest⟩ := List.nodup_cons.1 h
      rcases List.mem_cons.1 hmem with rfl | hmem
      · simp
      · have hne : e.1 ≠ k := fun he => hfresh (List.mem_map.2 ⟨(k, v), hmem, he.symm⟩)
        simp only [List.find?_cons, hne, decide_false]
        exact ih hrest hmem

end Table

end Templating
