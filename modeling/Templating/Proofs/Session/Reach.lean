import Mathlib.Logic.Relation
import Templating.Proofs.Generation.Calls
import Templating.Proofs.Session.Step

/-!
# What a request is about

The sources of a library say which template calls which, and so what a request
for some names has to generate: these and all that calls lead to. They also say
what the unit of each template is, since a call needs to know no more of its
callee than its place and the parameters it declares. A request can be served
when every template it is about has a unit and no two of them go to the same
place. None of this depends on how a request is carried out.
-/

namespace Templating

/-- A name below the directory of the tags or that of the layouts is no page. -/
theorem Name.kind_ofReference_ne_page (kind : Kind) (dotted extension : String) :
    (Name.ofReference kind dotted extension).kind ≠ .page := by
  have hbelow (directory rest : String) :
      directory.toList.isPrefixOf (directory ++ rest).toList = true := by
    rw [String.toList_append]
    exact List.isPrefixOf_iff_prefix.mpr (List.prefix_append _ _)
  have htext : ∃ rest, (Name.ofReference kind dotted extension).text = Name.tagDirectory ++ rest ∨
      (Name.ofReference kind dotted extension).text = Name.layoutDirectory ++ rest := by
    refine ⟨String.ofList (dotted.toList.map fun c => if c = '.' then '/' else c) ++ "." ++
      extension, ?_⟩
    cases kind <;> simp [Name.ofReference, String.append_assoc]
  obtain ⟨rest, htext⟩ := htext
  unfold Name.kind
  rcases htext with htext | htext
  · rw [htext, if_pos (hbelow _ _)]
    simp
  · rw [htext, hbelow Name.layoutDirectory rest]
    split <;> simp

namespace Session

section

variable (c : Configuration) (sources : Table Name String)

/-! ## Calls -/

/-- The template `caller` calls `callee`. -/
def Calls (caller callee : Name) : Prop :=
  ∃ source, sources.get? caller = some source ∧
    callee ∈ Generation.callees c.generation caller source

/-- One or more calls lead from a template to another. -/
def Reaches : Name → Name → Prop :=
  Relation.TransGen (Calls c sources)

/-- A request for `names` is about a template: it is one of them, or calls lead
to it. -/
def Within (names : List Name) (n : Name) : Prop :=
  ∃ root ∈ names, Relation.ReflTransGen (Calls c sources) root n

/-! ## Units -/

/-- The parameters that a template declares; none if it is not there. -/
def declaredBy (n : Name) : List Param :=
  match sources.get? n with
  | some source => Generation.declared c.generation n source
  | none => []

/-- What a call needs to know of the template it calls. -/
def calleeFor (n : Name) : Callee :=
  ⟨Address.ofName n c.package, declaredBy c sources n⟩

/-- The unit of a template, if it has one. -/
def unitOf (n : Name) : Option SourceUnit :=
  match sources.get? n with
  | some source =>
      ((Generation.generate c.generation (Generation.fixed (calleeFor c sources) (put c))
        (Address.ofName n c.package) source).run ()).1.toOption
  | none => none

/-- A request for `names` can be served. -/
structure Servable (names : List Name) : Prop where
  units : ∀ n, Within c sources names n → ∃ unit, unitOf c sources n = some unit
  apart : ∀ a b, Within c sources names a → Within c sources names b →
    slot c a = slot c b → a = b

end

variable {c : Configuration} {sources other : Table Name String} {names : List Name} {a b : Name}

theorem Within.listed (h : a ∈ names) : Within c sources names a :=
  ⟨a, h, .refl⟩

theorem Within.call (h : Within c sources names a) (hcall : Calls c sources a b) :
    Within c sources names b := by
  obtain ⟨root, hroot, hpath⟩ := h
  exact ⟨root, hroot, hpath.tail hcall⟩

theorem Within.mono {names' : List Name} (h : Within c sources names a) (hsub : names ⊆ names') :
    Within c sources names' a := by
  obtain ⟨root, hroot, hpath⟩ := h
  exact ⟨root, hsub hroot, hpath⟩

theorem within_singleton : Within c sources [a] b ↔ b = a ∨ Reaches c sources a b := by
  constructor
  · rintro ⟨root, hroot, hpath⟩
    obtain rfl := List.mem_singleton.mp hroot
    rcases Relation.reflTransGen_iff_eq_or_transGen.mp hpath with h | h
    · exact Or.inl h
    · exact Or.inr h
  · rintro (rfl | h)
    · exact .listed (List.mem_singleton_self _)
    · exact ⟨a, List.mem_singleton_self _, h.to_reflTransGen⟩

/-- A called template is a tag or a layout. -/
theorem Calls.kind_ne_page (h : Calls c sources a b) : b.kind ≠ .page := by
  obtain ⟨source, -, hb⟩ := h
  obtain ⟨e, -, he⟩ := List.mem_filterMap.mp hb
  unfold Generation.calleeOf at he
  split at he
  · rename_i kind reference arguments _
    obtain rfl := Option.some.inj he
    exact Name.kind_ofReference_ne_page _ _ _
  · cases he

/-! ## What units depend on -/

/-- Sources that agree on a template agree on its calls. -/
theorem Calls.congr (h : sources.get? a = other.get? a) :
    Calls c sources a b ↔ Calls c other a b := by
  unfold Calls
  rw [h]

theorem declaredBy_congr (h : sources.get? a = other.get? a) :
    declaredBy c sources a = declaredBy c other a := by
  unfold declaredBy
  rw [h]

/-- **The unit of a template depends on its source and those of its callees.** -/
theorem unitOf_congr (h : sources.get? a = other.get? a)
    (hcallees : ∀ b, Calls c sources a b → sources.get? b = other.get? b) :
    unitOf c sources a = unitOf c other a := by
  unfold unitOf
  rw [← h]
  split
  · rename_i source hsource
    have hfollows : Generation.Follows (Generation.fixed (calleeFor c sources) (put c))
        (Address.ofName a c.package).template
        (Generation.callees c.generation a source) (calleeFor c other) (put c) False
        (fun _ _ => True) := by
      constructor
      · intro called s call _ _ hcall
        right
        refine ⟨?_, trivial⟩
        have hsame := declaredBy_congr (c := c) (hcallees _ ⟨source, hsource, hcall⟩)
        show Except.ok (calleeFor c sources call.name) = Except.ok (calleeFor c other call.name)
        unfold calleeFor
        rw [hsame]
      · intro called s place _
        exact ⟨rfl, trivial⟩
    rcases Generation.generate_follows hfollows (s := ()) trivial with ⟨hfalse, -⟩ | ⟨hsame, -⟩
    · exact hfalse.elim
    · exact congrArg Except.toOption hsame
  · rfl

/-- Sources that agree on what a request is about give it the same reach. -/
theorem Within.congr (h : ∀ n, Within c sources names n → sources.get? n = other.get? n)
    (n : Name) : Within c sources names n ↔ Within c other names n := by
  constructor
  · rintro ⟨root, hroot, hpath⟩
    induction hpath with
    | refl => exact .listed hroot
    | tail hprefix hcall ih => exact ih.call ((Calls.congr (h _ ⟨root, hroot, hprefix⟩)).mp hcall)
  · rintro ⟨root, hroot, hpath⟩
    induction hpath with
    | refl => exact .listed hroot
    | tail hprefix hcall ih => exact ih.call ((Calls.congr (h _ ih)).mpr hcall)

theorem unitOf_within_congr (h : ∀ n, Within c sources names n → sources.get? n = other.get? n)
    (ha : Within c sources names a) : unitOf c sources a = unitOf c other a :=
  unitOf_congr (h a ha) fun b hcall => h b (ha.call hcall)

/-! ## Requests that can be served -/

theorem Servable.congr (h : ∀ n, Within c sources names n → sources.get? n = other.get? n)
    (hservable : Servable c sources names) : Servable c other names where
  units n hn := by
    have hwithin := (Within.congr h n).mpr hn
    rw [← unitOf_within_congr h hwithin]
    exact hservable.units n hwithin
  apart a b ha hb := hservable.apart a b ((Within.congr h a).mpr ha) ((Within.congr h b).mpr hb)

/-- What a request that can be served is about is there. -/
theorem Servable.isSome_source (h : Servable c sources names) (ha : Within c sources names a) :
    (sources.get? a).isSome = true := by
  obtain ⟨unit, hunit⟩ := h.units a ha
  unfold unitOf at hunit
  split at hunit
  · rename_i source hsource
    rw [hsource]
    rfl
  · cases hunit

/-- A part of a request that can be served can be served. -/
theorem Servable.mono {names' : List Name} (h : Servable c sources names') (hsub : names ⊆ names') :
    Servable c sources names where
  units n hn := h.units n (hn.mono hsub)
  apart a b ha hb := h.apart a b (ha.mono hsub) (hb.mono hsub)

end Session

end Templating
