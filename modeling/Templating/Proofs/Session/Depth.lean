import Mathlib.Data.List.Dedup
import Templating.Proofs.Session.Batch
import Templating.Proofs.Session.Fetching

/-!
# How deep a request goes

Calls may go round in circles, so that a request ends is no matter of course. It
does because the place of a template is reserved before its calls are followed: the
templates in the middle of one another are different ones. Here that is said of the
descent into calls without a bound of its own. Cut off at any depth above that of
the library it comes to the same, whatever is done where it is cut off; and cut off
at the number of templates that the request is about, it only meets templates there
that it is in the middle of already.
-/

namespace Templating.Session

/-! ## Descents that are cut off -/

section Descend

variable {L : Type}

/-- The descent into calls with `depth` templates in the middle of one another.
What the innermost of them calls is left to `bottom`. -/
def descend [Library L] (bottom : Enter L) : Nat → Enter L
  | 0 => bottom
  | depth + 1 => generateWith (descend bottom depth)

/-- Leave a template to `bottom` only if its place is free. -/
def revisit [Library L] (bottom : Enter L) : Enter L := fun name referencedFrom? => do
  let r ← get
  match r.request.reserved.get? (slot r.session.configuration name) with
  | some _ => generateWith bottom name referencedFrom?
  | none => bottom name referencedFrom?

/-- Generate requested templates one after the other, each by `enter`. -/
def eachBy (enter : Enter L) : List Name → StateM (Running L) (Except Failure Unit)
  | [] => return .ok ()
  | name :: rest => do
      match ← enter name none with
      | .error failure => return .error failure
      | .ok _ =>
          modify fun r => noteDependencies r name
          eachBy enter rest

/-- A request that descends into templates by `enter`. -/
def generateBy (enter : Enter L) (names : List Name) :
    StateM (Session L) (Except Failure Batch) := fun s =>
  match eachBy enter names { session := s } with
  | (.ok (), r) => (.ok ⟨r.request.units.toList⟩, r.session.settle names)
  | (.error failure, r) => (.error failure, r.session)

theorem eachBy_cons (enter : Enter L) (name : Name) (rest : List Name) (r : Running L) :
    (eachBy enter (name :: rest)).run r =
      match (enter name none).run r with
      | (.error failure, r') => (.error failure, r')
      | (.ok _, r') => (eachBy enter rest).run (noteDependencies r' name) := by
  rw [eachBy]
  simp only [StateT.run_bind]
  generalize (enter name none).run r = reached
  obtain ⟨answer, r'⟩ := reached
  cases answer <;> rfl

end Descend

variable {c : Configuration} {sources : Table Name String} {names stack : List Name}

/-! ## Descents that come to the same -/

/-- From a state of a descent with that stack, `other` does what `enter` does. -/
def Agrees (c : Configuration) (sources : Table Name String) (names : List Name)
    (enter other : Enter Memory) (stack : List Name) : Prop :=
  ∀ r name referencedFrom?, Descent c sources names stack r → Within c sources names name →
    (∀ a ∈ stack, Reaches c sources a name) →
    (other name referencedFrom?).run r = (enter name referencedFrom?).run r

section Agree

variable {enter other : Enter Memory} {name : Name} {r : Running Memory}

/-- The calls of a template are answered alike. -/
theorem Agrees.shows (henter : Descends c sources names enter (name :: stack))
    (hother : Agrees c sources names enter other (name :: stack)) (hnew : ¬r.Took name)
    (hwithin : Within c sources names name) (hchain : ∀ a ∈ stack, Reaches c sources a name)
    {source : String} (hsource : sources.get? name = some source) :
    Generation.Shows (linker enter) (linker other) id (Address.ofName name c.package).template
      (Generation.callees c.generation name source)
      (fun r' => ∃ called, Calling c sources names stack name r called r') := by
  have hfollows := follows_linker henter hnew hwithin hchain hsource
  constructor
  · rintro r' call ⟨called, h⟩ hcaller hcall
    have hresolved := hfollows.resolve called r' call h hcaller hcall
    obtain rfl : call.caller = name := hcaller
    obtain ⟨hrefer, hcallee, hleads⟩ := h.leads hwithin hchain ⟨source, hsource, hcall⟩
    have hsame := hother _ call.name (some ⟨call.caller, call.line⟩) hrefer hcallee hleads
    constructor
    · rw [id_eq, resolveCall_run, resolveCall_run, hsame]
      rfl
    · intro hok
      rcases hresolved with ⟨-, failure, hfailure⟩ | ⟨-, hcalling⟩
      · rw [hfailure] at hok
        cases hok
      · exact ⟨_, hcalling⟩
  · rintro r' place ⟨called, h⟩
    obtain ⟨-, hcalling⟩ := hfollows.intercept called r' place h
    exact ⟨rfl, called, hcalling⟩

/-- A template is generated alike if the templates below it are. -/
theorem Agrees.generateWith
    (henter : ∀ name, (sources.get? name).isSome = true →
      Descends c sources names enter (name :: stack))
    (hother : ∀ name, (sources.get? name).isSome = true →
      Agrees c sources names enter other (name :: stack)) :
    Agrees c sources names (generateWith enter) (generateWith other) stack := by
  intro r name referencedFrom? h hwithin hchain
  cases hslot : r.request.reserved.get? (slot r.session.configuration name) with
  | some holder => rw [generateWith_taken _ _ _ _ hslot, generateWith_taken _ _ _ _ hslot]
  | none =>
      rw [generateWith_free _ _ _ _ hslot, generateWith_free _ _ _ _ hslot, h.library,
        h.configuration]
      cases hsource : sources.get? name with
      | none => rfl
      | some source =>
          have hpresent : (sources.get? name).isSome = true := by
            rw [hsource]
            rfl
          have hgenerated := Generation.generate_shows c.generation
            (Agrees.shows (henter name hpresent) (hother name hpresent)
              (Running.not_took_of_free hslot) hwithin hchain hsource)
            (s := r.takeUp name) rfl ⟨[], .begin h hwithin hslot hsource⟩
          rw [id_eq, Prod.map_id, id_eq] at hgenerated
          simp only
          rw [generateUnit_run, generateUnit_run, Running.takeUp_configuration, h.configuration,
            hgenerated]

/-- Nothing is in the middle of more templates than the library has. -/
theorem agrees_of_full (hsize : sources.size ≤ stack.length) :
    Agrees c sources names (generateWith enter) (generateWith other) stack := by
  have hnone (name : Name) (r : Running Memory) : ¬Descent c sources names (name :: stack) r := by
    intro h
    have hle := h.length_stack_le
    rw [List.length_cons] at hle
    omega
  apply Agrees.generateWith
  · intro name _ r _ _ h
    exact absurd h (hnone name r)
  · intro name _ r _ _ h
    exact absurd h (hnone name r)

/-- **A descent that is deeper than the library is large comes to the same**, whatever
is done where it is cut off. -/
theorem agrees_descend (bottom : Enter Memory) {room depth : Nat}
    (hroom : sources.size ≤ room + stack.length) (hdepth : sources.size ≤ depth + stack.length) :
    Agrees c sources names (generateInto room) (descend bottom (depth + 1)) stack := by
  induction room generalizing stack depth with
  | zero =>
      rw [Nat.zero_add] at hroom
      exact agrees_of_full hroom
  | succ room ih =>
      cases depth with
      | zero =>
          rw [Nat.zero_add] at hdepth
          exact agrees_of_full hdepth
      | succ depth =>
          apply Agrees.generateWith
          · intro name _
            apply descends_generateInto
            rw [List.length_cons]
            omega
          · intro name _
            apply ih
            · rw [List.length_cons]
              omega
            · rw [List.length_cons]
              omega

theorem revisit_taken (bottom : Enter Memory) (referencedFrom? : Option Location) {holder : Name}
    (h : r.request.reserved.get? (slot r.session.configuration name) = some holder) :
    (revisit bottom name referencedFrom?).run r =
      (generateWith enter name referencedFrom?).run r := by
  rw [generateWith_taken enter name referencedFrom? r h,
    ← generateWith_taken bottom name referencedFrom? r h]
  unfold revisit
  simp only [StateT.run_bind, StateT.run_get, pure_bind, h]

/-- The stack has no more templates than the request is about, and if it has as many
there is nothing left to be taken up. -/
theorem Descent.took_of_length_le (h : Descent c sources names stack r) {all : List Name}
    (hall : ∀ n, Within c sources names n → n ∈ all) (hlength : all.length ≤ stack.length)
    (hwithin : Within c sources names name) : r.Took name := by
  have hsub : stack ⊆ all := by
    intro n hn
    exact hall n (h.within n ((h.took n).mpr (Or.inl hn)))
  have hperm : stack.Perm all :=
    ((List.nodup_append.mp h.nodup).1.subperm hsub).perm_of_length_le hlength
  exact (h.took name).mpr (Or.inl (hperm.mem_iff.mpr (hall name hwithin)))

/-- **A descent is no deeper than the request is wide**: at a depth of as many
templates as it is about, it only meets what it has taken up. -/
theorem agrees_revisit (bottom : Enter Memory) {all : List Name}
    (hall : ∀ n, Within c sources names n → n ∈ all) {room depth : Nat}
    (hroom : sources.size ≤ room + stack.length) (hdepth : all.length ≤ depth + stack.length) :
    Agrees c sources names (generateInto room) (descend (revisit bottom) depth) stack := by
  induction depth generalizing stack room with
  | zero =>
      intro r name referencedFrom? h hwithin _
      rw [Nat.zero_add] at hdepth
      have htook := h.took_of_length_le hall hdepth hwithin
      cases room <;> exact revisit_taken bottom referencedFrom? htook
  | succ depth ih =>
      cases room with
      | zero =>
          rw [Nat.zero_add] at hroom
          exact agrees_of_full hroom
      | succ room =>
          apply Agrees.generateWith
          · intro name _
            apply descends_generateInto
            rw [List.length_cons]
            omega
          · intro name _
            apply ih
            · rw [List.length_cons]
              omega
            · rw [List.length_cons]
              omega

/-! ## Requests -/

theorem eachBy_eq {room : Nat} (hroom : sources.size ≤ room)
    (hother : Agrees c sources names (generateInto room) other []) (rest : List Name)
    (h : Descent c sources names [] r) (hsub : rest ⊆ names) :
    (eachBy other rest).run r = (generateEach room rest).run r := by
  induction rest generalizing r with
  | nil => rfl
  | cons name rest ih =>
      have hwithin : Within c sources names name := .listed (hsub List.mem_cons_self)
      have hends : Descends c sources names (generateInto room) [] :=
        descends_generateInto c sources names hroom
      specialize hends r name none h hwithin (by simp)
      rw [eachBy_cons, generateEach_cons, hother r name none h hwithin (by simp)]
      generalize (generateInto room name none).run r = reached at hends
      obtain ⟨answer, r'⟩ := reached
      cases answer with
      | error failure => rfl
      | ok address =>
          rcases hends with ⟨-, failure, hfailure⟩ | ⟨-, hdescent, -⟩
          · cases hfailure
          · exact ih hdescent.noteDependencies fun n hn => hsub (List.mem_cons_of_mem _ hn)

/-- A request comes to the same by every descent that does. -/
theorem generateBy_eq (s : Session Memory) (names : List Name)
    (hother : Agrees s.configuration s.library.sources names
      (generateInto s.library.sources.size) other []) :
    (generateBy other names).run s = (generate names).run s := by
  have heach : eachBy other names { session := s } = requested s names :=
    eachBy_eq (Nat.le_refl _) hother names (Descent.start names) (List.Subset.refl names)
  rw [generate_run, ← heach]
  unfold generateBy
  simp only [StateT.run]
  generalize eachBy other names { session := s } = reached
  obtain ⟨answer, r⟩ := reached
  cases answer <;> rfl

end Agree

/-- What a request is about can be listed: its names and what the sources call. -/
theorem exists_within_list (c : Configuration) (sources : Table Name String)
    (names : List Name) :
    ∃ all : List Name, all.Nodup ∧ ∀ n, n ∈ all ↔ Within c sources names n := by
  classical
  let called := sources.entries.flatMap fun e => Generation.callees c.generation e.1 e.2
  refine ⟨(names ++ called).dedup.filter (Within c sources names),
    (List.nodup_dedup _).filter _, ?_⟩
  intro n
  rw [List.mem_filter, List.mem_dedup, decide_eq_true_eq, and_iff_right_iff_imp]
  rintro ⟨root, hroot, hpath⟩
  rcases hpath with _ | ⟨-, source, hsource, hcallee⟩
  · exact List.mem_append_left _ hroot
  · exact List.mem_append_right _
      (List.mem_flatMap.mpr ⟨_, Table.mem_of_get? hsource, hcallee⟩)

/-- **Every request ends.** Its descent into calls needs no bound: cut off at any
depth above the size of the library it comes to the same, whatever is done there.
There are never more templates in the middle of one another than the request is
about, that is, names it lists or calls lead to: cut off at that depth, its descent
leaves nothing at a free place to be done. And it fetches no template twice, as a
record of what it fetches shows, which makes no difference to what it comes to. -/
theorem generate_terminates (s : Session Memory) (names : List Name) :
    (∀ bottom depth, s.library.sources.size < depth →
      (generateBy (descend bottom depth) names).run s = (generate names).run s) ∧
    (∃ all : List Name, all.Nodup ∧
      (∀ n, n ∈ all ↔ Within s.configuration s.library.sources names n) ∧
      ∀ bottom, (generateBy (descend (revisit bottom) all.length) names).run s =
        (generate names).run s) ∧
    Prod.map id unrecorded ((generate names).run s.recorded) = (generate names).run s ∧
      ((generate names).run s.recorded).2.library.fetched.Nodup := by
  have hroom : s.library.sources.size ≤ s.library.sources.size + ([] : List Name).length :=
    Nat.le_refl _
  refine ⟨?_, ?_, ?_, fetched_nodup s names⟩
  · intro bottom depth hdepth
    obtain ⟨depth, rfl⟩ := Nat.exists_eq_succ_of_ne_zero (Nat.ne_zero_of_lt hdepth)
    exact generateBy_eq s names (agrees_descend bottom hroom (Nat.le_of_lt_succ hdepth))
  · obtain ⟨all, hnodup, hall⟩ := exists_within_list s.configuration s.library.sources names
    refine ⟨all, hnodup, hall, ?_⟩
    intro bottom
    exact generateBy_eq s names
      (agrees_revisit bottom (fun n hn => (hall n).mpr hn) hroom (Nat.le_refl _))
  · exact (generate_unrecorded names s.recorded).symm

end Templating.Session
