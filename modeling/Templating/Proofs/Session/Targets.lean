import Templating.Proofs.Name.Extension
import Templating.Proofs.Session.Addresses
import Templating.Proofs.Session.Supply

/-!
# The targets of a batch

A call stays in the target of its caller, so every unit of a batch has the target
of the names that calls lead to it from. Whether the units share one target, and
which, can be told from the names of the request.
-/

namespace Templating

/-! ## The targets of some units -/

namespace Batch

variable {b : Batch}

/-- Some unit has the target. -/
def Has (b : Batch) (t : Target) : Prop :=
  ∃ u ∈ b.units, u.address.target = t

instance (b : Batch) (t : Target) : Decidable (b.Has t) :=
  inferInstanceAs (Decidable (∃ u ∈ b.units, u.address.target = t))

theorem targets_eq (b : Batch) : b.targets = (if b.Has .rust then [Target.rust] else []) ++
    (if b.Has .kotlin then [Target.kotlin] else []) := by
  have hany (t : Target) :
      (b.units.any fun u => u.address.target == t) = decide (b.Has t) := by
    rw [Bool.eq_iff_iff, List.any_eq_true, decide_eq_true_iff]
    simp only [beq_iff_eq]
    rfl
  unfold targets
  simp only [hany]
  by_cases hrust : b.Has .rust <;> by_cases hkotlin : b.Has .kotlin <;> simp [hrust, hkotlin]

/-- Units share no target when they have both. -/
theorem target_eq_error_iff {failure : Failure} : b.target = .error failure ↔
    failure = .mixedTargets [.rust, .kotlin] ∧ b.Has .rust ∧ b.Has .kotlin := by
  unfold target
  rw [targets_eq]
  by_cases hrust : b.Has .rust <;> by_cases hkotlin : b.Has .kotlin <;>
    simp [hrust, hkotlin, eq_comm]

/-- Units share a target when they have just that one. -/
theorem target_eq_some_iff {t : Target} : b.target = .ok (some t) ↔ ∀ t', b.Has t' ↔ t' = t := by
  have hboth : (∀ t', b.Has t' ↔ t' = t) ↔
      (b.Has .rust ↔ Target.rust = t) ∧ (b.Has .kotlin ↔ Target.kotlin = t) := by
    constructor
    · exact fun h => ⟨h _, h _⟩
    · rintro ⟨hrust, hkotlin⟩ (_ | _)
      · exact hrust
      · exact hkotlin
  unfold target
  rw [targets_eq, hboth]
  by_cases hrust : b.Has .rust <;> by_cases hkotlin : b.Has .kotlin <;> cases t <;>
    simp [hrust, hkotlin]

/-- The target that units share is that of each of them. -/
theorem target_of_mem {t : Target} (h : b.target = .ok (some t)) {u : SourceUnit}
    (hu : u ∈ b.units) : u.address.target = t :=
  (target_eq_some_iff.mp h _).mp ⟨u, hu, rfl⟩

end Batch

namespace Session

variable {c : Configuration} {sources : Table Name String} {names : List Name}

/-! ## Calls keep the target -/

theorem Calls.target_eq {a b : Name} (h : Calls c sources a b) : b.target = a.target := by
  obtain ⟨source, -, hb⟩ := h
  obtain ⟨e, -, he⟩ := List.mem_filterMap.mp hb
  unfold Generation.calleeOf at he
  split at he
  · rename_i kind reference arguments _
    rw [← Option.some.inj he]
    exact a.target_ofCall kind reference
  · cases he

/-- However far calls lead, they stay in the target. -/
theorem target_of_path {a b : Name} (h : Relation.ReflTransGen (Calls c sources) a b) :
    b.target = a.target := by
  induction h with
  | refl => rfl
  | tail _ hcall ih => exact hcall.target_eq.trans ih

/-- **A batch has the targets of the names that it was requested for**, and no
other. -/
theorem Batched.has_iff {batch : Batch} (h : Batched c sources names batch.units) {t : Target} :
    batch.Has t ↔ ∃ n ∈ names, n.target = t := by
  constructor
  · rintro ⟨u, hu, rfl⟩
    obtain ⟨root, hroot, hpath⟩ := (h.templates _).mp (List.mem_map_of_mem hu)
    exact ⟨root, hroot, by rw [h.target_eq hu, target_of_path hpath]⟩
  · rintro ⟨n, hn, rfl⟩
    obtain ⟨u, hu, htemplate⟩ := List.mem_map.mp ((h.templates n).mpr (.listed hn))
    exact ⟨u, hu, by rw [h.target_eq hu, htemplate]⟩

/-! ## Compiling what was generated -/

section Compile

variable {L τ : Type} [Library L] {backend : Target → Backend τ} {s s' : Session L} {t : τ}
  {batch : Batch}

/-- A request that is served goes on with the target of its batch. -/
theorem compileWith_run (h : (generate names).run s = (.ok batch, s')) :
    (compileWith backend names).run (s, t) =
      match batch.target with
      | .error failure => (.error failure, s', t)
      | .ok none => (.ok batch, s', t)
      | .ok (some target) =>
          match (backend target batch.units s'.configuration.classPath).run t with
          | (.ok (), t) => (.ok batch, s', t)
          | (.error (.io fault), t) => (.error (.unwritable fault), s', t)
          | (.error (.problems problems), t) =>
              (.error (.rejected (problems.map batch.translate)), s', t) := by
  show compileWith backend names (s, t) = _
  unfold compileWith
  simp only
  rw [show generate names s = (.ok batch, s') from h]
  simp only
  generalize batch.target = target
  cases target with
  | error failure => rfl
  | ok target? =>
      cases target? with
      | none => rfl
      | some target =>
          simp only [StateT.run]
          generalize backend target batch.units s'.configuration.classPath t = verdict
          obtain ⟨(fault | problems) | _, t⟩ := verdict <;> rfl

/-- Only units of different targets make it fail for that. -/
theorem compileWith_mixed_iff (h : ((generate names).run s).1 = .ok batch) :
    (∃ ts, ((compileWith backend names).run (s, t)).1 = .error (.mixedTargets ts)) ↔
      batch.Has .rust ∧ batch.Has .kotlin := by
  rw [compileWith_run (Prod.ext h rfl)]
  constructor
  · rintro ⟨ts, hmixed⟩
    split at hmixed
    · rename_i failure hfailure
      exact (Batch.target_eq_error_iff.mp hfailure).2
    · cases hmixed
    · split at hmixed <;> cases hmixed
  · intro hboth
    rw [Batch.target_eq_error_iff.mpr ⟨rfl, hboth⟩]
    exact ⟨_, rfl⟩

end Compile

section Precompile

variable {L : Type} [Library L] {s : Session L} {batch : Batch}

theorem precompile_eq (here : Files.Place) (tree : Files.Tree) :
    (precompile here names).run (s, tree) = (compileWith (fun target => delivering
      (s.configuration.delivery?.getD (Delivery.ofTarget target)) here s.configuration.output)
        names).run (s, tree) :=
  rfl

/-- A batch of one target is delivered as suits the target, unless another delivery
is set. -/
theorem precompile_run (h : ((generate names).run s).1 = .ok batch) {target : Target}
    (htarget : batch.target = .ok (some target)) (here : Files.Place) (tree : Files.Tree) :
    (precompile here names).run (s, tree) =
      match Packaging.deliver (s.configuration.delivery?.getD (Delivery.ofTarget target)) here
        s.configuration.output batch.units tree with
      | (tree, none) => (.ok batch, ((generate names).run s).2, tree)
      | (tree, some fault) => (.error (.unwritable fault), ((generate names).run s).2, tree) := by
  rw [precompile_eq, compileWith_run (Prod.ext h rfl), htarget]
  simp only [delivering, StateT.run]
  generalize Packaging.deliver _ here s.configuration.output batch.units tree = delivered
  obtain ⟨tree, _ | fault⟩ := delivered <;> rfl

/-- **The names of a request decide on its target.** Each unit of the batch has the
target of every name that calls lead to it from, and there is one. So the request
is refused for its targets just when its names have both, and if its names have one
target and no other delivery is set, the batch is delivered as suits that target: in
a bundle if it is Rust, in a file for each unit if it is Kotlin. -/
theorem target_of_names (h : ((generate names).run s).1 = .ok batch) (here : Files.Place)
    (tree : Files.Tree) :
    (∀ (caller : Name) (kind : CallKind) (dotted : String),
      (caller.ofCall kind dotted).extension? =
          some (caller.extension?.getD Target.rust.templateExtension) ∧
        (caller.ofCall kind dotted).target = caller.target) ∧
    (∃ sources, Drawn s.library sources ∧ ∀ u ∈ batch.units,
      (∃ root ∈ names, Relation.ReflTransGen (Calls s.configuration sources) root u.template) ∧
      ∀ root ∈ names, Relation.ReflTransGen (Calls s.configuration sources) root u.template →
        u.address.target = root.target) ∧
    ((∃ ts, ((precompile here names).run (s, tree)).1 = .error (.mixedTargets ts)) ↔
      (∃ a ∈ names, a.target = .rust) ∧ ∃ b ∈ names, b.target = .kotlin) ∧
    (∀ target, names ≠ [] → (∀ n ∈ names, n.target = target) →
      s.configuration.delivery? = none →
      (precompile here names).run (s, tree) =
        match Packaging.deliver (Delivery.ofTarget target) here s.configuration.output batch.units
          tree with
        | (tree, none) => (.ok batch, ((generate names).run s).2, tree)
        | (tree, some fault) => (.error (.unwritable fault), ((generate names).run s).2, tree)) ∧
    Delivery.ofTarget .rust = .bundle ∧ Delivery.ofTarget .kotlin = .separate := by
  obtain ⟨sources, hdrawn, hbatched, -⟩ := batched_of_ok h
  refine ⟨?_, ⟨sources, hdrawn, ?_⟩, ?_, ?_, rfl, rfl⟩
  · intro caller kind dotted
    exact ⟨caller.extension?_ofCall kind dotted, caller.target_ofCall kind dotted⟩
  · intro u hu
    refine ⟨(hbatched.templates _).mp (List.mem_map_of_mem hu), ?_⟩
    intro root _ hpath
    rw [hbatched.target_eq hu, target_of_path hpath]
  · rw [precompile_eq, ← hbatched.has_iff, ← hbatched.has_iff]
    exact compileWith_mixed_iff h
  · intro target hnames hall hdelivery
    have htarget : batch.target = .ok (some target) := by
      rw [Batch.target_eq_some_iff]
      intro t
      rw [hbatched.has_iff]
      constructor
      · rintro ⟨n, hn, rfl⟩
        exact hall n hn
      · rintro rfl
        obtain ⟨n, hn⟩ := List.exists_mem_of_ne_nil names hnames
        exact ⟨n, hn, hall n hn⟩
    rw [precompile_run h htarget, hdelivery]
    rfl

/-- A page that calls a tag is refused along with a page of the other target. -/
theorem target_of_names_mixed :
    let memory : Memory := ((({} : Memory).insert ⟨"tag/a.stn"⟩ "a").insert
      ⟨"page"⟩ "@tag.a()").insert ⟨"page.kstn"⟩ "b"
    let s : Session Memory := { configuration := {}, library := memory }
    ∃ batch, ((generate [⟨"page"⟩, ⟨"page.kstn"⟩]).run s).1 = .ok batch ∧
      batch.units.map SourceUnit.template = [⟨"tag/a.stn"⟩, ⟨"page"⟩, ⟨"page.kstn"⟩] ∧
      ∃ ts, ((precompile [] [⟨"page"⟩, ⟨"page.kstn"⟩]).run (s, {})).1 =
        .error (.mixedTargets ts) := by
  intro memory s
  obtain ⟨batch, hok, htemplates⟩ : ∃ batch,
      ((generate [⟨"page"⟩, ⟨"page.kstn"⟩]).run s).1 = .ok batch ∧
        batch.units.map SourceUnit.template = [⟨"tag/a.stn"⟩, ⟨"page"⟩, ⟨"page.kstn"⟩] :=
    exists_batch (by decide +kernel)
  refine ⟨batch, hok, htemplates, ?_⟩
  exact (target_of_names hok [] {}).2.2.1.mpr (by decide)

end Precompile

end Session

end Templating
