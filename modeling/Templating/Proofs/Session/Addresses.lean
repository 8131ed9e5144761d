import Templating.Proofs.Session.Batch
import Templating.Proofs.SourceUnit.Address

/-!
# Addresses in a batch

The units of a served request are at the addresses of their templates, and no two of
one target are at the same address.
-/

namespace Templating.Session

variable {c : Configuration} {sources : Table Name String} {names : List Name}
  {units : List SourceUnit} {u v : SourceUnit}

theorem Batched.address_eq (h : Batched c sources names units) (hu : u ∈ units) :
    u.address = Address.ofName u.template c.package :=
  unitOf_address (h.units u hu)

/-- A unit has the target of its template. -/
theorem Batched.target_eq (h : Batched c sources names units) (hu : u ∈ units) :
    u.address.target = u.template.target := by
  have haddress := h.address_eq hu
  rw [haddress]
  rfl

/-- The units have a target that their templates have. -/
theorem Batched.forall_target (h : Batched c sources names units) {templates : List Name}
    (htemplates : units.map SourceUnit.template = templates) {t : Target}
    (ht : ∀ n ∈ templates, n.target = t) : ∀ u ∈ units, u.address.target = t := by
  intro u hu
  rw [h.target_eq hu]
  exact ht _ (htemplates ▸ List.mem_map_of_mem hu)

/-- A unit is at an address of words. -/
theorem Batched.isWord (h : Batched c sources names units) (hu : u ∈ units) :
    ∀ segment ∈ u.address.segments, Address.IsWord segment := by
  rw [h.address_eq hu]
  exact Address.isWord_ofName _ _

/-- **Units of one target are apart**: the identifier tells which unit it is. -/
theorem Batched.eq_of_identifier (h : Batched c sources names units)
    (hservable : Servable c sources names) (hu : u ∈ units) (hv : v ∈ units)
    (htarget : u.address.target = v.address.target) (hidentifier : u.identifier = v.identifier) :
    u = v :=
  List.inj_on_of_nodup_map (h.slots_nodup hservable) hu hv (Prod.ext hidentifier htarget)

/-- The segments of its address tell as much. -/
theorem Batched.eq_of_segments (h : Batched c sources names units)
    (hservable : Servable c sources names) (hu : u ∈ units) (hv : v ∈ units)
    (htarget : u.address.target = v.address.target)
    (hsegments : u.address.segments = v.address.segments) : u = v :=
  h.eq_of_identifier hservable hu hv htarget (congrArg (String.intercalate ".") hsegments)

/-- A unit is generated from the source of its template. -/
theorem Batched.generated (h : Batched c sources names units) (hu : u ∈ units) :
    ∃ source, sources.get? u.template = some source ∧
      ((Generation.generate c.generation (Generation.fixed (calleeFor c sources) (put c))
        (Address.ofName u.template c.package) source).run ()).1 = .ok u := by
  have hunit := h.units u hu
  unfold unitOf at hunit
  split at hunit
  · rename_i source hsource
    exact ⟨source, hsource, eq_ok_of_toOption hunit⟩
  · cases hunit

end Templating.Session
