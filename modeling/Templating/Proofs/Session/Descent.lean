import Mathlib.Data.List.Perm.Subperm
import Templating.Proofs.Session.Closure
import Templating.Proofs.Session.Reach
import Templating.Proofs.Text.Everywhere

/-!
# The descent into calls

A request descends into the calls of a template before it finishes the template
itself. At every moment the templates it has taken up are those in the middle of
one another, the stack, and those whose units are finished, and the stack is a
chain of calls. So a call leads to a template that is finished, or to one on the
stack, which then calls back, or to one that is taken up now.

`Descent` is that invariant. A descent from such a state ends in such a state,
unless the request cannot be served at all.
-/

namespace Templating

/-! ## References -/

theorem References.mem_of_add {r : References} {caller callee a b : Name} :
    b ∈ (r.add caller callee).of a ↔ b ∈ r.of a ∨ a = caller ∧ b = callee := by
  unfold References.of References.add
  rw [Table.get?_set]
  by_cases ha : a = caller
  · subst ha
    simp
  · simp [ha]

namespace Session

variable {c : Configuration} {sources : Table Name String} {names : List Name}

/-! ## Units of a request -/

theorem unitOf_address {n : Name} {unit : SourceUnit} (h : unitOf c sources n = some unit) :
    unit.address = Address.ofName n c.package := by
  unfold unitOf at h
  split at h
  · rename_i source _
    generalize hgenerated : ((Generation.generate c.generation
      (Generation.fixed (calleeFor c sources) (put c)) (Address.ofName n c.package) source).run
        ()).1 = answer at h
    cases answer with
    | error failure => cases h
    | ok u =>
        obtain rfl := Option.some.inj h
        rw [Generation.generate_fst] at hgenerated
        obtain ⟨-, hfailure, rfl⟩ := Generation.Progress.finish_eq_ok hgenerated
        obtain ⟨entries, htrace⟩ := Generation.trace_progress _ _ _ _ hfailure
        exact htrace.ran.address
  · cases h

/-- Callees come first, but for calls back. -/
def CalleesFirst (c : Configuration) (sources : Table Name String) (l : List Name) : Prop :=
  ∀ before n after, l = before ++ n :: after → ∀ v, Calls c sources n v →
    v ∈ before ∨ Reaches c sources v n

theorem CalleesFirst.snoc {l : List Name} (h : CalleesFirst c sources l) {n : Name}
    (hn : ∀ v, Calls c sources n v → v ∈ l ∨ Reaches c sources v n) :
    CalleesFirst c sources (l ++ [n]) :=
  everywhere_snoc.mpr ⟨h, hn⟩

/-! ## The invariant -/

/-- In the course of a request for `names`: the templates of the stack are in the
middle of one another, innermost first, and all others that the request has taken
up are finished. -/
structure Descent (c : Configuration) (sources : Table Name String) (names stack : List Name)
    (r : Running Memory) : Prop where
  configuration : r.session.configuration = c
  library : r.session.library.sources = sources
  within : ∀ n, r.Took n → Within c sources names n
  slots : ∀ key n, r.request.reserved.get? key = some n → key = slot c n
  took : ∀ n, r.Took n ↔ n ∈ stack ∨ n ∈ r.delivered
  nodup : (stack ++ r.delivered).Nodup
  present : ∀ n ∈ stack, (sources.get? n).isSome = true
  params : ∀ n, r.Took n → r.request.params.get? n = some (declaredBy c sources n)
  units : ∀ unit ∈ r.request.units.toList, unitOf c sources unit.template = some unit
  ordered : CalleesFirst c sources r.delivered
  closed : ∀ n ∈ r.delivered, ∀ v, Calls c sources n v → r.Took v
  references : ∀ n ∈ r.delivered, ∀ v,
    v ∈ r.request.references.of n ↔ Calls c sources n v
  unreferenced : ∀ n, ¬r.Took n → r.request.references.of n = []

namespace Descent

variable {stack : List Name} {r r' : Running Memory} {name : Name}

theorem start {s : Session Memory} (names : List Name) :
    Descent s.configuration s.library.sources names [] { session := s } := by
  constructor
  case configuration => rfl
  case library => rfl
  case nodup => exact List.nodup_nil
  case took =>
    intro n
    simp [Running.Took, Running.delivered]
  case ordered =>
    intro before n after h
    cases before <;> cases h
  all_goals simp [Running.Took, Running.delivered, References.of, Dependencies.empty]

/-- Places are told apart by the templates that have them. -/
theorem took_of_holder (h : Descent c sources names stack r) {key : String × Target} {n : Name}
    (hkey : r.request.reserved.get? key = some n) : key = slot c n ∧ r.Took n := by
  have hslot := h.slots key n hkey
  refine ⟨hslot, ?_⟩
  unfold Running.Took
  rw [h.configuration, ← hslot]
  exact hkey

/-- The stack is no longer than the library is large. -/
theorem length_stack_le (h : Descent c sources names stack r) : stack.length ≤ sources.size := by
  have hsub : stack ⊆ sources.keys := by
    intro n hn
    exact Table.mem_keys_of_get? (h.present n hn)
  have hnodup : stack.Nodup := (List.nodup_append.mp h.nodup).1
  have hle := (List.Nodup.subperm hnodup hsub).length_le
  rwa [Table.keys, List.length_map] at hle

/-- A template of the stack notes that it refers to another. -/
theorem refer (h : Descent c sources names stack r) (hname : name ∈ stack) (callee : Name) :
    Descent c sources names stack (r.refer name callee) where
  configuration := h.configuration
  library := h.library
  within := h.within
  slots := h.slots
  took := h.took
  nodup := h.nodup
  present := h.present
  params := h.params
  units := h.units
  ordered := h.ordered
  closed := h.closed
  references := by
    intro n hn v
    have hne : n ≠ name := by
      rintro rfl
      exact (List.nodup_append.mp h.nodup).2.2 n hname n hn rfl
    rw [← h.references n hn v]
    exact References.mem_of_add.trans (or_iff_left fun hv => hne hv.1)
  unreferenced := by
    intro n hn
    have hne : n ≠ name := by
      rintro rfl
      exact hn ((h.took n).mpr (Or.inl hname))
    apply List.eq_nil_iff_forall_not_mem.mpr
    intro v hv
    rcases References.mem_of_add.mp hv with hv | ⟨hv, -⟩
    · rw [h.unreferenced n hn] at hv
      cases hv
    · exact hne hv

/-- A template at a free place goes on the stack, and its parameters are known. -/
theorem enter (h : Descent c sources names stack r)
    (hfree : r.request.reserved.get? (slot r.session.configuration name) = none)
    (hpresent : (sources.get? name).isSome = true) (hwithin : Within c sources names name) :
    Descent c sources names (name :: stack)
      ((r.takeUp name).declare name (declaredBy c sources name)) := by
  have hnew := Running.not_took_of_free hfree
  have htook (n : Name) : ((r.takeUp name).declare name (declaredBy c sources name)).Took n ↔
      r.Took n ∨ n = name := r.took_takeUp name hfree
  constructor
  case configuration => exact h.configuration
  case library => exact h.library
  case within =>
    intro n hn
    rcases (htook n).mp hn with hn | rfl
    · exact h.within n hn
    · exact hwithin
  case slots =>
    intro key n hkey
    have hkey' : (r.request.reserved.set (slot r.session.configuration name) name).get? key =
        some n := hkey
    rw [Table.get?_set] at hkey'
    split at hkey'
    · rename_i heq
      obtain rfl := Option.some.inj hkey'
      rw [heq, h.configuration]
    · exact h.slots key n hkey'
  case took =>
    intro n
    rw [htook, h.took, List.mem_cons]
    constructor
    · rintro ((hn | hn) | rfl)
      · exact Or.inl (Or.inr hn)
      · exact Or.inr hn
      · exact Or.inl (Or.inl rfl)
    · rintro ((rfl | hn) | hn)
      · exact Or.inr rfl
      · exact Or.inl (Or.inl hn)
      · exact Or.inl (Or.inr hn)
  case nodup =>
    rw [List.cons_append]
    refine List.nodup_cons.mpr ⟨?_, h.nodup⟩
    intro hmem
    exact hnew ((h.took name).mpr (List.mem_append.mp hmem))
  case present =>
    intro n hn
    rcases List.mem_cons.mp hn with rfl | hn
    · exact hpresent
    · exact h.present n hn
  case params =>
    intro n hn
    show (r.request.params.set name (declaredBy c sources name)).get? n = _
    rw [Table.get?_set]
    rcases (htook n).mp hn with hn | rfl
    · split
      · rename_i heq
        rw [heq]
      · exact h.params n hn
    · rw [if_pos rfl]
  case units => exact h.units
  case ordered => exact h.ordered
  case closed =>
    intro n hn v hv
    exact (htook v).mpr (Or.inl (h.closed n hn v hv))
  case references => exact h.references
  case unreferenced =>
    intro n hn
    apply h.unreferenced n
    intro hn'
    exact hn ((htook n).mpr (Or.inl hn'))

/-- The innermost template is finished once it has called all its callees. -/
theorem deliver (h : Descent c sources names (name :: stack) r) {unit : SourceUnit}
    (hunit : unitOf c sources name = some unit)
    (hcalls : ∀ v, Calls c sources name v → r.Took v)
    (hreferences : ∀ v, v ∈ r.request.references.of name ↔ Calls c sources name v)
    (hchain : ∀ a ∈ stack, Reaches c sources a name) :
    Descent c sources names stack (r.deliver unit) := by
  have htemplate : unit.template = name := by
    unfold SourceUnit.template
    rw [unitOf_address hunit]
    rfl
  have hdelivered : (r.deliver unit).delivered = r.delivered ++ [name] := by
    show (r.request.units.push unit).toList.map SourceUnit.template = _
    rw [Array.toList_push, List.map_append, List.map_singleton, htemplate]
    rfl
  have hmem (n : Name) : n ∈ (r.deliver unit).delivered ↔ n ∈ r.delivered ∨ n = name := by
    rw [hdelivered, List.mem_append, List.mem_singleton]
  constructor
  case configuration => exact h.configuration
  case library => exact h.library
  case within => exact h.within
  case slots => exact h.slots
  case took =>
    intro n
    rw [hmem]
    have htook : (r.deliver unit).Took n ↔ n ∈ name :: stack ∨ n ∈ r.delivered := h.took n
    rw [htook, List.mem_cons]
    constructor
    · rintro ((rfl | hn) | hn)
      · exact Or.inr (Or.inr rfl)
      · exact Or.inl hn
      · exact Or.inr (Or.inl hn)
    · rintro (hn | hn | rfl)
      · exact Or.inl (Or.inr hn)
      · exact Or.inr hn
      · exact Or.inl (Or.inl rfl)
  case nodup =>
    rw [hdelivered, ← List.append_assoc]
    exact (List.perm_append_singleton name _).nodup_iff.mpr h.nodup
  case present =>
    intro n hn
    exact h.present n (List.mem_cons_of_mem _ hn)
  case params => exact h.params
  case units =>
    intro u hu
    have hu' : u ∈ (r.request.units.push unit).toList := hu
    rw [Array.toList_push, List.mem_append, List.mem_singleton] at hu'
    rcases hu' with hu | rfl
    · exact h.units u hu
    · rw [htemplate]
      exact hunit
  case ordered =>
    rw [hdelivered]
    apply h.ordered.snoc
    intro v hv
    -- What is called is finished, or it is on the stack and calls back.
    rcases (h.took v).mp (hcalls v hv) with hstack | hdone
    · right
      rcases List.mem_cons.mp hstack with rfl | hstack
      · exact Relation.TransGen.single hv
      · exact hchain v hstack
    · exact Or.inl hdone
  case closed =>
    intro n hn v hv
    rcases (hmem n).mp hn with hn | rfl
    · exact h.closed n hn v hv
    · exact hcalls v hv
  case references =>
    intro n hn v
    rcases (hmem n).mp hn with hn | rfl
    · exact h.references n hn v
    · exact hreferences v
  case unreferenced => exact h.unreferenced

/-- Asking the hook is no part of a descent. -/
theorem intercepted (h : Descent c sources names stack r) (place : Interception) :
    Descent c sources names stack (r.intercepted place) :=
  ⟨h.configuration, h.library, h.within, h.slots, h.took, h.nodup, h.present, h.params, h.units,
    h.ordered, h.closed, h.references, h.unreferenced⟩

end Descent

/-! ## How a descent ends -/

/-- The request goes on: it has taken up what it had before, and notes no further
references for that. -/
structure Grows (r r' : Running Memory) : Prop where
  took : ∀ n, r.Took n → r'.Took n
  references : ∀ n, r.Took n → r'.request.references.of n = r.request.references.of n

namespace Grows

variable {r r' r'' : Running Memory}

theorem refl (r : Running Memory) : Grows r r :=
  ⟨fun _ h => h, fun _ _ => rfl⟩

theorem trans (h : Grows r r') (h' : Grows r' r'') : Grows r r'' where
  took n hn := h'.took n (h.took n hn)
  references n hn := (h'.references n (h.took n hn)).trans (h.references n hn)

/-- What a template refers to that has been taken up since does not count. -/
theorem refer (h : Grows r r') {name : Name} (hnew : ¬r.Took name) (callee : Name) :
    Grows r (r'.refer name callee) where
  took := h.took
  references n hn := by
    have hne : n ≠ name := by
      rintro rfl
      exact hnew hn
    rw [← h.references _ hn]
    show ((r'.request.references.add name callee).of n) = _
    unfold References.add References.of
    rw [Table.get?_set, if_neg hne]

theorem enter {name : Name}
    (hfree : r.request.reserved.get? (slot r.session.configuration name) = none)
    (params : List Param) : Grows r ((r.takeUp name).declare name params) where
  took _ hn := (r.took_takeUp name hfree).mpr (Or.inl hn)
  references _ _ := rfl

end Grows

/-- The descent into `name` comes to its place, in a state as before but for what
has been finished; or the request cannot be served. -/
def Ends (c : Configuration) (sources : Table Name String) (names stack : List Name)
    (name : Name) (r : Running Memory) (result : Except Failure Address × Running Memory) : Prop :=
  (¬Servable c sources names ∧ ∃ failure, result.1 = .error failure) ∨
    (result.1 = .ok (Address.ofName name c.package) ∧ Descent c sources names stack result.2 ∧
      result.2.Took name ∧ Grows r result.2)

/-- Every descent from a state with that stack, into something that the whole
stack leads to, ends as it should. -/
def Descends (c : Configuration) (sources : Table Name String) (names : List Name)
    (enter : Enter Memory) (stack : List Name) : Prop :=
  ∀ r name referencedFrom?, Descent c sources names stack r → Within c sources names name →
    (∀ a ∈ stack, Reaches c sources a name) →
    Ends c sources names stack name r ((enter name referencedFrom?).run r)

section Descend

variable {enter : Enter Memory} {stack : List Name} {name : Name} {r : Running Memory}

/-- What holds while `name` is generated from `r` and has called `called`. -/
structure Calling (c : Configuration) (sources : Table Name String) (names stack : List Name)
    (name : Name) (r : Running Memory) (called : List Name) (r' : Running Memory) : Prop where
  descent : Descent c sources names (name :: stack) r'
  grows : Grows r r'
  took : ∀ v ∈ called, r'.Took v
  references : ∀ v, v ∈ r'.request.references.of name ↔ v ∈ called

/-- A template at a free place is taken up and its parameters are announced before
it calls anything. -/
theorem Calling.begin (h : Descent c sources names stack r)
    (hwithin : Within c sources names name)
    (hfree : r.request.reserved.get? (slot r.session.configuration name) = none)
    {source : String} (hsource : sources.get? name = some source) :
    Calling c sources names stack name r []
      ((r.takeUp name).declare name (Generation.declared c.generation name source)) := by
  have hentered := h.enter hfree (by rw [hsource]; rfl) hwithin
  rw [show declaredBy c sources name = Generation.declared c.generation name source by
    unfold declaredBy; rw [hsource]] at hentered
  refine ⟨hentered, .enter hfree _, ?_, ?_⟩
  · intro v hv
    cases hv
  · intro v
    show v ∈ r.request.references.of name ↔ v ∈ []
    rw [h.unreferenced name (Running.not_took_of_free hfree)]

/-- A template that is being generated leads the descent to what it calls. -/
theorem Calling.leads {called : List Name} {r' : Running Memory} {callee : Name}
    (h : Calling c sources names stack name r called r') (hwithin : Within c sources names name)
    (hchain : ∀ a ∈ stack, Reaches c sources a name) (hcalls : Calls c sources name callee) :
    Descent c sources names (name :: stack) (r'.refer name callee) ∧
      Within c sources names callee ∧ ∀ a ∈ name :: stack, Reaches c sources a callee := by
  refine ⟨h.descent.refer List.mem_cons_self callee, hwithin.call hcalls, ?_⟩
  intro a ha
  rcases List.mem_cons.mp ha with rfl | ha
  · exact Relation.TransGen.single hcalls
  · exact (hchain a ha).tail hcalls

/-- The calls of a template are answered with its callees, as long as the descent
into each of them ends. -/
theorem follows_linker (henter : Descends c sources names enter (name :: stack))
    (hnew : ¬r.Took name) (hwithin : Within c sources names name)
    (hchain : ∀ a ∈ stack, Reaches c sources a name) {source : String}
    (hsource : sources.get? name = some source) :
    Generation.Follows (linker enter) (Address.ofName name c.package).template
      (Generation.callees c.generation name source) (calleeFor c sources) (put c)
      (¬Servable c sources names) (Calling c sources names stack name r) := by
  constructor
  · rintro called r' call h hcaller hcall
    obtain rfl : call.caller = name := hcaller
    obtain ⟨hrefer, hcallee, hleads⟩ := h.leads hwithin hchain ⟨source, hsource, hcall⟩
    have hends := henter _ call.name (some ⟨call.caller, call.line⟩) hrefer hcallee hleads
    rw [resolveCall_run]
    generalize (enter call.name (some ⟨call.caller, call.line⟩)).run
      (r'.refer call.caller call.name) = reached at hends
    obtain ⟨answer, r''⟩ := reached
    rcases hends with ⟨hfaulty, failure, hfailure⟩ | ⟨hanswer, hdescent, htook, hgrows⟩
    · left
      obtain rfl : answer = .error failure := hfailure
      exact ⟨hfaulty, failure, rfl⟩
    · right
      obtain rfl : answer = .ok (Address.ofName call.name c.package) := hanswer
      have hcaller : (r'.refer call.caller call.name).Took call.caller :=
        (hrefer.took _).mpr (Or.inl List.mem_cons_self)
      have hparams : r''.paramsOf call.name = declaredBy c sources call.name := by
        unfold Running.paramsOf
        rw [hdescent.params call.name htook]
        rfl
      refine ⟨?_, hdescent, (h.grows.refer hnew call.name).trans hgrows, ?_, ?_⟩
      · show Except.ok (Callee.mk (Address.ofName call.name c.package) _) = _
        rw [hparams]
        rfl
      · intro v hv
        rcases List.mem_append.mp hv with hv | hv
        · exact hgrows.took v (h.took v hv)
        · rw [List.mem_singleton.mp hv]
          exact htook
      · intro v
        show v ∈ r''.request.references.of call.caller ↔ _
        rw [hgrows.references call.caller hcaller, List.mem_append, List.mem_singleton,
          ← h.references v]
        exact References.mem_of_add.trans (or_congr_right (and_iff_right rfl))
  · intro called r' place h
    rw [intercept_run, h.descent.configuration]
    refine ⟨rfl, ?_⟩
    simp only
    split
    · exact ⟨h.descent.intercepted place, ⟨h.grows.took, h.grows.references⟩, h.took,
        h.references⟩
    · exact h

theorem not_servable_of_unitOf (hwithin : Within c sources names name)
    (hnone : unitOf c sources name = none) : ¬Servable c sources names := by
  intro hservable
  obtain ⟨unit, hunit⟩ := hservable.units name hwithin
  rw [hnone] at hunit
  cases hunit

/-- A template whose place is taken is there already, or it collides with the one
that has the place. -/
theorem ends_taken (h : Descent c sources names stack r) (hwithin : Within c sources names name)
    {holder : Name}
    (hslot : r.request.reserved.get? (slot r.session.configuration name) = some holder)
    (referencedFrom? : Option Location) :
    Ends c sources names stack name r ((generateWith enter name referencedFrom?).run r) := by
  rw [generateWith_taken enter name referencedFrom? r hslot, h.configuration]
  obtain ⟨hsame, htook⟩ := h.took_of_holder hslot
  rw [h.configuration] at hsame
  by_cases hname : holder = name
  · right
    rw [if_pos hname]
    rw [hname] at htook
    exact ⟨rfl, h, htook, .refl r⟩
  · left
    rw [if_neg hname]
    refine ⟨?_, _, rfl⟩
    intro hservable
    exact hname (hservable.apart holder name (h.within holder htook) hwithin hsame.symm)

/-- A template whose place was free is generated from its source. -/
theorem ends_generateUnit (h : Descent c sources names stack r)
    (hwithin : Within c sources names name) (hchain : ∀ a ∈ stack, Reaches c sources a name)
    (hfree : r.request.reserved.get? (slot r.session.configuration name) = none)
    {source : String} (hsource : sources.get? name = some source)
    (henter : Descends c sources names enter (name :: stack)) :
    Ends c sources names stack name r
      ((generateUnit enter (Address.ofName name c.package) source).run (r.takeUp name)) := by
  have hnew := Running.not_took_of_free hfree
  rw [generateUnit_run, Running.takeUp_configuration, h.configuration]
  have hgenerated := Generation.generate_follows
    (follows_linker henter hnew hwithin hchain hsource) (s := r.takeUp name)
    (.begin h hwithin hfree hsource)
  have hunit : unitOf c sources name = ((Generation.generate c.generation
      (Generation.fixed (calleeFor c sources) (put c)) (Address.ofName name c.package)
      source).run ()).1.toOption := by
    unfold unitOf
    rw [hsource]
  generalize (Generation.generate c.generation (linker enter) (Address.ofName name c.package)
    source).run (r.takeUp name) = reached at hgenerated
  obtain ⟨answer, r'⟩ := reached
  rcases hgenerated with ⟨hfaulty, failure, hfailure⟩ | ⟨hsame, hstate⟩
  · left
    obtain rfl : answer = .error failure := hfailure
    exact ⟨hfaulty, failure, rfl⟩
  · rw [← hsame] at hunit
    cases answer with
    | error failure =>
        left
        exact ⟨not_servable_of_unitOf hwithin hunit, failure, rfl⟩
    | ok unit =>
        right
        have hcalling := hstate unit rfl
        have hcallees (v : Name) : Calls c sources name v ↔
            v ∈ Generation.callees c.generation name source := by
          unfold Calls
          rw [hsource]
          simp
        have hname : r'.Took name :=
          (hcalling.descent.took name).mpr (Or.inl List.mem_cons_self)
        refine ⟨rfl, hcalling.descent.deliver hunit ?_ ?_ hchain, hname,
          ⟨hcalling.grows.took, hcalling.grows.references⟩⟩
        · intro v hv
          exact hcalling.took v ((hcallees v).mp hv)
        · intro v
          exact (hcalling.references v).trans (hcallees v).symm

/-- **A descent ends** as it should if the descents into the calls of the template
do. -/
theorem descends_generateWith
    (henter : ∀ name, (sources.get? name).isSome = true → Descends c sources names enter
      (name :: stack)) : Descends c sources names (generateWith enter) stack := by
  intro r name referencedFrom? h hwithin hchain
  cases hslot : r.request.reserved.get? (slot r.session.configuration name) with
  | some holder => exact ends_taken h hwithin hslot referencedFrom?
  | none =>
      rw [generateWith_free enter name referencedFrom? r hslot, h.library, h.configuration]
      cases hsource : sources.get? name with
      | none =>
          left
          refine ⟨not_servable_of_unitOf hwithin ?_, _, rfl⟩
          unfold unitOf
          rw [hsource]
      | some source =>
          exact ends_generateUnit h hwithin hchain hslot hsource
            (henter name (by rw [hsource]; rfl))

/-- **Every descent ends**, if there is room for as many templates as the library
has. -/
theorem descends_generateInto (c : Configuration) (sources : Table Name String)
    (names : List Name) {room : Nat} {stack : List Name}
    (hroom : sources.size ≤ room + stack.length) :
    Descends c sources names (generateInto room) stack := by
  induction room generalizing stack with
  | zero =>
      apply descends_generateWith
      -- A template more in the middle of one another would be more than there are.
      intro name _ r _ _ h
      have hle := h.length_stack_le
      rw [List.length_cons] at hle
      omega
  | succ room ih =>
      apply descends_generateWith
      intro name _
      apply ih
      rw [List.length_cons]
      omega

end Descend

end Session

end Templating
