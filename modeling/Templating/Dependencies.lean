import Templating.Name

/-!
# Dependencies

The templates that a template refers to, directly or through what it calls, in
the order in which they were found and each once.
-/

namespace Templating

structure Dependencies where
  order : List Name := []
  nodup : order.Nodup := by simp

namespace Dependencies

instance : DecidableEq Dependencies := fun a b =>
  if h : a.order = b.order then .isTrue (by cases a; cases b; cases h; rfl)
  else .isFalse fun hab => h (hab ▸ rfl)

/-- No dependencies. -/
def empty : Dependencies := {}

instance : Inhabited Dependencies := ⟨empty⟩

def contains (d : Dependencies) (name : Name) : Bool :=
  decide (name ∈ d.order)

/-- Add a name at the end, unless it is there. -/
def insert (d : Dependencies) (name : Name) : Dependencies :=
  if h : name ∈ d.order then d
  else
    { order := d.order ++ [name]
      nodup := by
        refine List.nodup_append.2 ⟨d.nodup, by simp, ?_⟩
        intro a ha b hb
        simp only [List.mem_singleton] at hb
        subst hb
        exact fun hab => h (hab ▸ ha) }

def ofList (names : List Name) : Dependencies :=
  names.foldl insert empty

def length (d : Dependencies) : Nat :=
  d.order.length

def isEmpty (d : Dependencies) : Bool :=
  d.order.isEmpty

@[simp] theorem mem_insert {d : Dependencies} {name other : Name} :
    other ∈ (d.insert name).order ↔ other ∈ d.order ∨ other = name := by
  unfold insert
  split
  · rename_i h
    exact ⟨Or.inl, fun ho => ho.elim id fun e => e ▸ h⟩
  · simp

theorem contains_iff {d : Dependencies} {name : Name} :
    d.contains name = true ↔ name ∈ d.order := by
  simp [contains]

end Dependencies

end Templating
