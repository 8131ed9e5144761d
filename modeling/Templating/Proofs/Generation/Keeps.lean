import Templating.Proofs.Generation.Trace

/-!
# What generation keeps

A property of a linker's state that answering calls, announcing parameters and
putting text keep is kept by the generation of a whole unit, whether it succeeds
or not.
-/

namespace Templating

/-- Running the action keeps the property `P` of the state. -/
def Keeps {σ α : Type} (P : σ → Prop) (x : StateM σ α) : Prop :=
  ∀ s, P s → P (x.run s).2

namespace Keeps

variable {σ α β : Type} {P : σ → Prop}

theorem pure (a : α) : Keeps P (Pure.pure a : StateM σ α) := by
  intro s hs
  exact hs

theorem bind {x : StateM σ α} {f : α → StateM σ β} (hx : Keeps P x) (hf : ∀ a, Keeps P (f a)) :
    Keeps P (x >>= f) := by
  intro s hs
  exact hf _ _ (hx s hs)

theorem foldlM {f : β → α → StateM σ β} (h : ∀ b a, Keeps P (f b a)) (b : β) (xs : List α) :
    Keeps P (xs.foldlM f b) := by
  induction xs generalizing b with
  | nil => exact pure b
  | cons a xs ih =>
      rw [List.foldlM_cons]
      exact bind (h b a) ih

end Keeps

namespace Generation

/-- Whatever the linker is asked, the property of its state is kept. -/
structure Preserves {σ : Type} (P : σ → Prop) (linker : Linker σ) : Prop where
  resolve : ∀ call, Keeps P (linker.resolve call)
  declare : ∀ name params, Keeps P (linker.declare name params)
  intercept : ∀ place, Keeps P (linker.intercept place)

variable {σ : Type} {P : σ → Prop} {linker : Linker σ}

theorem Preserves.takeEvent (h : Preserves P linker) (setting : Setting) (p : Progress)
    (e : Event) : Keeps P (p.takeEvent setting linker e) := by
  unfold Progress.takeEvent
  split
  · exact Keeps.pure p
  · simp only
    split
    case h_4 => exact Keeps.bind (h.declare _ _) fun _ => Keeps.pure _
    case h_6 => exact Keeps.bind (h.resolve _) fun _ => Keeps.pure _
    case h_7 =>
      split
      · exact Keeps.bind (h.intercept _) fun _ => Keeps.pure _
      · split <;> exact Keeps.pure _
    all_goals exact Keeps.pure _

/-- **The generation of a unit keeps what its linker keeps.** -/
theorem Preserves.generate (h : Preserves P linker) (setting : Setting) (address : Address)
    (source : String) : Keeps P (Generation.generate setting linker address source) := by
  apply Keeps.bind
  · apply Keeps.foldlM
    intro p x
    cases x with
    | event e => exact h.takeEvent setting p e
    | problem problem => exact Keeps.pure _
  · intro p
    exact Keeps.pure _

end Generation

end Templating
