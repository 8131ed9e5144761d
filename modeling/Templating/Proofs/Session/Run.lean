import Templating.Proofs.Session.Tracking

/-!
# Runs of a session

Between the requests that a session serves sources come and go, and templates are
invalidated. For a template and the request that listed it last, two things can be
pending at the end of a run: that something it depended on then was edited or
invalidated since, which no later request takes away, and that its own source was
edited, which the next request takes away that is about it.
-/

namespace Templating.Session

/-- What can happen to a session over a library in memory. -/
inductive Operation where
  | insert (name : Name) (source : String)
  | remove (name : Name)
  | invalidate (name : Name)
  | generate (names : List Name)
deriving DecidableEq, Repr

def perform (s : Session Memory) : Operation → Session Memory
  | .insert name source => { s with library := s.library.insert name source }
  | .remove name => { s with library := (s.library.remove name).2 }
  | .invalidate name => s.invalidate name
  | .generate names => ((generate names).run s).2

def performAll (s : Session Memory) (ops : List Operation) : Session Memory :=
  ops.foldl perform s

/-- A session that has served no request yet. -/
def fresh (c : Configuration) (library : Memory) : Session Memory :=
  { configuration := c, library }

namespace Operation

/-- The source of a template is inserted or removed. -/
def Edits (n : Name) : Operation → Prop
  | insert name _ => name = n
  | remove name => name = n
  | _ => False

def Invalidates (n : Name) : Operation → Prop
  | invalidate name => name = n
  | _ => False

/-- A template is requested by its name. -/
def Requests (n : Name) : Operation → Prop
  | generate names => n ∈ names
  | _ => False

/-- A request is about a template, whether it lists it or not. -/
def IsAbout (s : Session Memory) (n : Name) : Operation → Prop
  | generate names => Within s.configuration s.library.sources names n
  | _ => False

/-- A request is served. -/
def Succeeds (s : Session Memory) : Operation → Prop
  | generate names => ∃ batch, ((Session.generate names).run s).1 = .ok batch
  | _ => True

/-- A template that depends on others is invalidated, or one of these is edited or
invalidated. -/
def Concerns (n : Name) (depends : Name → Prop) (op : Operation) : Prop :=
  op.Invalidates n ∨ ∃ m, depends m ∧ (op.Edits m ∨ op.Invalidates m)

instance decidableRequests (n : Name) : (op : Operation) → Decidable (op.Requests n)
  | generate names => inferInstanceAs (Decidable (n ∈ names))
  | insert _ _ | remove _ | invalidate _ => isFalse id

instance decidableSucceeds (s : Session Memory) : (op : Operation) → Decidable (op.Succeeds s)
  | generate names =>
      match h : ((Session.generate names).run s).1 with
      | .ok batch => isTrue ⟨batch, h⟩
      | .error _ => isFalse fun ⟨_, hok⟩ => nomatch h.symm.trans hok
  | insert _ _ | remove _ | invalidate _ => isTrue trivial

end Operation

/-- All requests of a run are served. -/
def AllSucceed : Session Memory → List Operation → Prop
  | _, [] => True
  | s, op :: ops => op.Succeeds s ∧ AllSucceed (s.perform op) ops

/-- No request of a run is about a template. -/
def Spares (n : Name) : Session Memory → List Operation → Prop
  | _, [] => True
  | s, op :: ops => ¬op.IsAbout s n ∧ Spares n (s.perform op) ops

instance decidableAllSucceed : (s : Session Memory) → (ops : List Operation) →
    Decidable (AllSucceed s ops)
  | _, [] => isTrue trivial
  | s, op :: ops =>
      have := decidableAllSucceed (s.perform op) ops
      inferInstanceAs (Decidable (op.Succeeds s ∧ AllSucceed (s.perform op) ops))

variable {s : Session Memory} {op : Operation} {ops : List Operation} {n : Name}

theorem performAll_cons (s : Session Memory) (op : Operation) (ops : List Operation) :
    s.performAll (op :: ops) = (s.perform op).performAll ops := rfl

theorem performAll_append (s : Session Memory) (earlier later : List Operation) :
    s.performAll (earlier ++ later) = (s.performAll earlier).performAll later :=
  List.foldl_append

theorem allSucceed_append {earlier later : List Operation} : AllSucceed s (earlier ++ later) ↔
    AllSucceed s earlier ∧ AllSucceed (s.performAll earlier) later := by
  induction earlier generalizing s with
  | nil => simp [AllSucceed, performAll]
  | cons op earlier ih =>
      rw [List.cons_append, AllSucceed, AllSucceed, ih, and_assoc]
      rfl

/-! ## What every operation keeps -/

/-- However a request ends, configuration and sources are what they were, and the
session notes the dependencies of a template at most once. -/
theorem generate_keeps (h : s.dependencies.Distinct) (names : List Name) :
    ((generate names).run s).2.configuration = s.configuration ∧
      ((generate names).run s).2.library.sources = s.library.sources ∧
      ((generate names).run s).2.dependencies.Distinct := by
  cases hanswer : ((generate names).run s).1 with
  | ok batch =>
      have hsettled := settled_of_ok h hanswer
      exact ⟨hsettled.configuration, hsettled.library, hsettled.distinct⟩
  | error failure =>
      obtain ⟨done, name, rest, r, -, -, -, htracks, hsession⟩ := tracks_of_error h hanswer
      rw [hsession]
      exact ⟨htracks.configuration, htracks.library, htracks.distinct⟩

theorem distinct_perform (h : s.dependencies.Distinct) (op : Operation) :
    (s.perform op).dependencies.Distinct := by
  cases op with
  | insert _ _ | remove _ | invalidate _ => exact h
  | generate names => exact (generate_keeps h names).2.2

theorem distinct_performAll (h : s.dependencies.Distinct) (ops : List Operation) :
    (s.performAll ops).dependencies.Distinct := by
  induction ops generalizing s with
  | nil => exact h
  | cons op ops ih => exact ih (distinct_perform h op)

theorem configuration_perform (h : s.dependencies.Distinct) (op : Operation) :
    (s.perform op).configuration = s.configuration := by
  cases op with
  | insert _ _ | remove _ | invalidate _ => rfl
  | generate names => exact (generate_keeps h names).1

theorem configuration_performAll (h : s.dependencies.Distinct) (ops : List Operation) :
    (s.performAll ops).configuration = s.configuration := by
  induction ops generalizing s with
  | nil => rfl
  | cons op ops ih =>
      exact (ih (distinct_perform h op)).trans (configuration_perform h op)

/-- A source is what it was unless it is edited. -/
theorem source_perform (h : s.dependencies.Distinct) (hop : ¬op.Edits n) :
    (s.perform op).library.sources.get? n = s.library.sources.get? n := by
  cases op with
  | insert name source =>
      show (s.library.sources.set name source).get? n = _
      rw [Table.get?_set, if_neg (fun hn => hop hn.symm)]
  | remove name =>
      show (s.library.sources.erase name).get? n = _
      rw [Table.get?_erase, if_neg (fun hn => hop hn.symm)]
  | invalidate name => rfl
  | generate names =>
      show ((generate names).run s).2.library.sources.get? n = _
      rw [(generate_keeps h names).2.1]

theorem source_performAll (h : s.dependencies.Distinct) (hops : ∀ op ∈ ops, ¬op.Edits n) :
    (s.performAll ops).library.sources.get? n = s.library.sources.get? n := by
  induction ops generalizing s with
  | nil => rfl
  | cons op ops ih =>
      have hrest := ih (distinct_perform h op) fun op' hop' => hops op' (List.mem_cons_of_mem _ hop')
      exact hrest.trans (source_perform h (hops op List.mem_cons_self))

/-! ## What is pending of the template itself -/

/-- An edit is pending until a request is about the template. -/
theorem mem_changed_perform (h : s.dependencies.Distinct) (hop : op.Succeeds s) :
    n ∈ (s.perform op).library.changed ↔
      op.Edits n ∨ n ∈ s.library.changed ∧ ¬op.IsAbout s n := by
  have hmark (name : Name) : n ∈ (s.library.markChanged name).changed ↔
      name = n ∨ n ∈ s.library.changed := by
    unfold Memory.markChanged
    split
    · rename_i hname
      constructor
      · exact Or.inr
      · rintro (rfl | hn)
        · exact hname
        · exact hn
    · rw [List.mem_cons, eq_comm]
  cases op with
  | insert name _ | remove name =>
      show n ∈ (s.library.markChanged name).changed ↔ _
      simp [hmark, Operation.Edits, Operation.IsAbout]
  | invalidate name =>
      show n ∈ s.library.changed ↔ _
      simp [Operation.Edits, Operation.IsAbout]
  | generate names =>
      obtain ⟨batch, hbatch⟩ := hop
      simp only [Operation.Edits, false_or]
      exact (settled_of_ok h hbatch).changed n

/-- **An edit is pending at the end of a run** just when no request since then was
about the template. -/
theorem mem_changed_performAll (h : s.dependencies.Distinct) (hops : AllSucceed s ops) :
    n ∈ (s.performAll ops).library.changed ↔
      (n ∈ s.library.changed ∧ Spares n s ops) ∨
        ∃ earlier op later, ops = earlier ++ op :: later ∧ op.Edits n ∧
          Spares n (s.performAll (earlier ++ [op])) later := by
  induction ops generalizing s with
  | nil => simp [performAll, Spares]
  | cons op ops ih =>
      have hsplit : (∃ earlier op' later, op :: ops = earlier ++ op' :: later ∧ op'.Edits n ∧
          Spares n (s.performAll (earlier ++ [op'])) later) ↔
          (op.Edits n ∧ Spares n (s.perform op) ops) ∨
            ∃ earlier op' later, ops = earlier ++ op' :: later ∧ op'.Edits n ∧
              Spares n ((s.perform op).performAll (earlier ++ [op'])) later := by
        constructor
        · rintro ⟨earlier, op', later, hop, hedits, hspares⟩
          cases earlier with
          | nil =>
              obtain ⟨rfl, rfl⟩ := List.cons.inj hop
              exact Or.inl ⟨hedits, hspares⟩
          | cons first earlier =>
              obtain ⟨rfl, rfl⟩ := List.cons.inj hop
              exact Or.inr ⟨earlier, op', later, rfl, hedits, hspares⟩
        · rintro (⟨hedits, hspares⟩ | ⟨earlier, op', later, rfl, hedits, hspares⟩)
          · exact ⟨[], op, ops, rfl, hedits, hspares⟩
          · exact ⟨op :: earlier, op', later, rfl, hedits, hspares⟩
      show n ∈ ((s.perform op).performAll ops).library.changed ↔ _
      rw [ih (distinct_perform h op) hops.2, mem_changed_perform h hops.1, hsplit, or_and_right,
        and_assoc, or_comm (a := op.Edits n ∧ _), or_assoc]
      rfl

/-- Requests about a page list it. -/
theorem spares_of_page (hpage : n.kind = .page) (hops : ∀ op ∈ ops, ¬op.Requests n) :
    Spares n s ops := by
  induction ops generalizing s with
  | nil => trivial
  | cons op ops ih =>
      refine ⟨?_, ih fun op' hop' => hops op' (List.mem_cons_of_mem _ hop')⟩
      cases op with
      | generate names =>
          rintro ⟨root, hroot, hpath⟩
          rcases Relation.ReflTransGen.cases_tail hpath with rfl | ⟨caller, -, hcall⟩
          · exact hops _ List.mem_cons_self hroot
          · exact hcall.kind_ne_page hpage
      | _ => exact id

/-! ## What is pending of its dependencies -/

theorem dependencies_perform (h : s.dependencies.Distinct) (hop : op.Succeeds s)
    (hlast : ¬op.Requests n) :
    (s.perform op).dependencies.get? n = s.dependencies.get? n := by
  cases op with
  | insert _ _ | remove _ | invalidate _ => rfl
  | generate names =>
      obtain ⟨batch, hbatch⟩ := hop
      exact (settled_of_ok h hbatch).dependencies n hlast

theorem awaits_perform {depends : Name → Prop} (h : s.dependencies.Distinct)
    (hdepends : ∀ m, DependedOn s n m ↔ depends m) (hop : op.Succeeds s)
    (hlast : ¬op.Requests n) :
    Awaits (s.perform op) n depends ↔ Awaits s n depends ∨ op.Concerns n depends := by
  have hchanged (m : Name) := mem_changed_perform (n := m) h hop
  cases op with
  | insert _ _ | remove _ =>
      simp only [Awaits, Operation.Concerns, hchanged, Operation.Edits, Operation.IsAbout,
        Operation.Invalidates]
      show (n ∈ s.stale ∨ _) ↔ _
      grind
  | invalidate name =>
      simp only [Awaits, Operation.Concerns, hchanged, Operation.Edits, Operation.IsAbout,
        Operation.Invalidates, false_or]
      show (n ∈ (s.invalidate name).stale ∨ _) ↔ _
      rw [mem_invalidate_stale h, hdepends]
      grind
  | generate names =>
      obtain ⟨batch, hbatch⟩ := hop
      refine ((settled_of_ok h hbatch).awaits_iff hdepends hlast).trans (or_iff_left ?_).symm
      rintro (hnone | ⟨m, -, hnone | hnone⟩) <;> exact hnone

/-- **What is pending of its dependencies** at the end of a run that does not
request a template: what was pending and what the run does to them, whatever else
is requested. -/
theorem awaits_performAll {depends : Name → Prop} (h : s.dependencies.Distinct)
    (hdepends : ∀ m, DependedOn s n m ↔ depends m) (hops : AllSucceed s ops)
    (hlast : ∀ op ∈ ops, ¬op.Requests n) :
    Awaits (s.performAll ops) n depends ↔
      Awaits s n depends ∨ ∃ op ∈ ops, op.Concerns n depends := by
  induction ops generalizing s with
  | nil => simp [performAll]
  | cons op ops ih =>
      have hop := hlast op List.mem_cons_self
      have hdepends' (m : Name) : DependedOn (s.perform op) n m ↔ depends m := by
        unfold DependedOn
        rw [dependencies_perform h hops.1 hop]
        exact hdepends m
      show Awaits ((s.perform op).performAll ops) n depends ↔ _
      rw [ih (distinct_perform h op) hdepends' hops.2
        fun op' hop' => hlast op' (List.mem_cons_of_mem _ hop'),
        awaits_perform h hdepends hops.1 hop, List.exists_mem_cons_iff, or_assoc]

theorem dependencies_performAll (h : s.dependencies.Distinct) (hops : AllSucceed s ops)
    (hlast : ∀ op ∈ ops, ¬op.Requests n) :
    (s.performAll ops).dependencies.get? n = s.dependencies.get? n := by
  induction ops generalizing s with
  | nil => rfl
  | cons op ops ih =>
      have hrest := ih (distinct_perform h op) hops.2
        fun op' hop' => hlast op' (List.mem_cons_of_mem _ hop')
      exact hrest.trans (dependencies_perform h hops.1 (hlast op List.mem_cons_self))

/-! ## Since the last request -/

/-- What a run that begins with a served request leaves of a template that it does
not request again: the dependencies are those of that request, and the template
has changed just when one of them is concerned or an edit of its own is pending. -/
theorem since_request (h : s.dependencies.Distinct) {names : List Name} (hn : n ∈ names)
    (hops : AllSucceed s (.generate names :: ops)) (hlast : ∀ op ∈ ops, ¬op.Requests n) :
    Noted s.configuration s.library.sources (s.performAll (.generate names :: ops)) n ∧
      ((s.performAll (.generate names :: ops)).hasChanged n = true ↔
        (∃ op ∈ ops, op.Concerns n (Reaches s.configuration s.library.sources n)) ∨
          n ∈ (s.performAll (.generate names :: ops)).library.changed) := by
  obtain ⟨⟨batch, hbatch⟩, hrest⟩ := hops
  have hdistinct := distinct_perform h (.generate names)
  have hnoted := (served_of_ok hbatch).noted n hn
  have hfresh := (settled_of_ok h hbatch).hasChanged_listed hn hnoted
  have hkept : Noted s.configuration s.library.sources
      ((s.perform (.generate names)).performAll ops) n := by
    unfold Noted
    rw [dependencies_performAll hdistinct hrest hlast]
    exact hnoted
  have hnothing : ¬Awaits (s.perform (.generate names)) n
      (Reaches s.configuration s.library.sources n) := fun hawaits =>
    Bool.eq_false_iff.mp hfresh
      ((hasChanged_iff_awaits hnoted.dependedOn_iff).mpr (Or.inl hawaits))
  refine ⟨hkept, (hasChanged_iff_awaits hkept.dependedOn_iff).trans (or_congr_left ?_)⟩
  exact (awaits_performAll hdistinct hnoted.dependedOn_iff hrest hlast).trans
    (or_iff_right hnothing)

end Templating.Session
