import Templating.Proofs.Generation.Ascent
import Templating.Proofs.Packaging.Bundle
import Templating.Proofs.Packaging.Files

/-!
# Calls inside a bundle

A bundle nests each unit in the modules of its package, and the unit declares a
module of its own name. A call is spelled with the path of the callee. The two are
named independently; that they agree is what makes the call lead to the unit of the
template that is called, and to no other.
-/

namespace Templating

open Dialect (bodyLevel)

/-! ## What a unit declares -/

namespace Packaging

/-- The attribute of the module that a unit declares. -/
def allowance : String :=
  "#[allow(non_snake_case, dead_code, unused_imports, unused_variables, unused_mut, unused_parens, clippy::all)]"

/-- The code declares a module of this name, and a function to render in it. -/
def Declares (code unitName : String) : Prop :=
  Address.IsWord unitName ∧ ∃ inside rest : String, code = allowance ++ "\npub mod " ++ unitName ++
    " \x7b\n" ++ inside ++ "    pub fn render(\n" ++ rest

/-- The path leads through these modules to the function that the code declares. A
package may have the name of a unit beside it, but there is a function to render in
the module of the unit only. -/
def LeadsTo (path : String) (unit : List String × String) : Prop :=
  ∃ unitName, Declares unit.2 unitName ∧
    path = "crate::" ++ String.intercalate "::" (unit.1 ++ [unitName]) ++ "::render"

/-- A unit declares one module to begin with. -/
theorem Declares.unique {code a b : String} (ha : Declares code a) (hb : Declares code b) :
    a = b := by
  obtain ⟨hworda, inside, rest, rfl⟩ := ha
  obtain ⟨hwordb, inside', rest', h⟩ := hb
  rw [← String.toList_inj] at h ⊢
  simp only [String.toList_append, List.append_assoc, List.append_cancel_left_eq] at h
  exact (Text.append_cons_inj (hworda.not_mem (by decide)) (hwordb.not_mem (by decide)) h).1

end Packaging

namespace Draft

theorem codeOf_append (xs ys : List Written) : codeOf (xs ++ ys) = codeOf xs ++ codeOf ys :=
  List.flatMap_append

end Draft

namespace Dialect.Rust

/-- The lines of the prologue that declare the unit, and those between them. -/
theorem prologue_eq (h : Header) : ∃ inside rest : List Line, prologue h =
    [⟨0, Packaging.allowance⟩, ⟨0, "pub mod " ++ h.address.unitName ++ " \x7b"⟩] ++ inside ++
      [⟨1, "pub fn render("⟩] ++ rest := by
  obtain ⟨imports, name, binary, output, params, slots, last, hprologue⟩ :
      ∃ imports name binary output params slots last, prologue h =
        [⟨0, Packaging.allowance⟩, ⟨0, "pub mod " ++ h.address.unitName ++ " \x7b"⟩] ++ imports ++
          name ++ binary ++ [⟨0, ""⟩, ⟨1, "pub fn render("⟩, output] ++ params ++ slots ++ last :=
    ⟨_, _, _, _, _, _, _, rfl⟩
  exact ⟨imports ++ name ++ binary ++ [⟨0, ""⟩], output :: (params ++ slots ++ last),
    by simp [hprologue]⟩

/-- **The prologue of a unit declares it.** -/
theorem declares_prologue (h : Header) (hword : Address.IsWord h.address.unitName) {code : String}
    {body : List Draft.Written} (hcode : code.toList = Draft.codeOf
      ((prologue h).map (Draft.placed spelling.indent 1) ++ body)) :
    Packaging.Declares code h.address.unitName := by
  obtain ⟨inside, rest, hprologue⟩ := prologue_eq h
  refine ⟨hword, String.ofList (Draft.codeOf (inside.map (Draft.placed spelling.indent 1))),
    String.ofList (Draft.codeOf (rest.map (Draft.placed spelling.indent 1) ++ body)), ?_⟩
  rw [← String.toList_inj, hcode, hprologue]
  simp only [List.map_append, Draft.codeOf_append, String.toList_append, String.toList_ofList,
    List.append_assoc]
  simp [Draft.codeOf, Draft.placed, spelling, String.join]

/-- A call is spelled on one line, with the path of the callee in front. -/
theorem instruction_call (callee : Address) (values : List String) (called : CallKind) :
    ∃ rest, instruction (Generation.callInstruction callee values called) =
      [⟨0, path callee ++ "(" ++ rest⟩] := by
  cases called with
  | tag => exact ⟨passed values ++ ");", by simp [Generation.callInstruction, instruction,
      String.append_assoc]⟩
  | layout => exact ⟨passed values ++ ", &|" ++ slotName ++ ": &str, " ++ output ++ ": " ++
      outputType ++ "| \x7b", by simp [Generation.callInstruction, instruction,
        String.append_assoc]⟩

end Dialect.Rust

/-! ## Calls in the code of a unit -/

namespace Generation

variable {σ : Type} {setting : Setting} {linker : Linker σ} {address : Address}

/-- A call gives the instruction to call what the linker answers. -/
theorem Gives.of_call {kind : Kind} {line depth : Nat} {called : CallKind} {reference : String}
    {arguments : List Text.Slice} {effect : Effect}
    (h : Gives linker address kind ⟨line, depth, .call called reference arguments⟩ effect) :
    ∃ s callee values, ((linker.resolve ⟨address.template, line, called,
        address.template.ofCall called reference⟩).run s).1 = .ok callee ∧
      effect = .code (callInstruction callee.address values called) := by
  cases h with
  | put hplace s => cases hplace
  | code hi => cases hi
  | call depth s hanswer hbound => exact ⟨s, _, _, hanswer, rfl⟩
  | nothing hsilent => cases hsilent

/-- **Every call is a line of the code**, with the path of what the linker answers. -/
theorem Generated.call_line {source : String} {entries : List Entry} {unit : SourceUnit}
    (h : Generated setting linker address source entries unit) (hrust : address.target = .rust)
    {line depth : Nat} {called : CallKind} {reference : String} {arguments : List Text.Slice}
    (hcall : (⟨line, depth, .call called reference arguments⟩ : Event) ∈
      Scan.events ⟨address.kind, setting.interest?⟩ source.toList) :
    ∃ s callee before after rest, ((linker.resolve ⟨address.template, line, called,
        address.template.ofCall called reference⟩).run s).1 = .ok callee ∧
      unit.code.toList = Draft.codeOf (before ++ Draft.placed Dialect.Rust.spelling.indent line
        ⟨depth + bodyLevel, Dialect.Rust.path callee.address ++ "(" ++ rest⟩ :: after) := by
  rw [← h.events] at hcall
  obtain ⟨⟨event, effect⟩, hentry, rfl⟩ := List.mem_map.mp hcall
  obtain ⟨s, callee, values, hanswer, rfl⟩ := (h.gives _ hentry).of_call
  obtain ⟨front, back, rfl⟩ := List.append_of_mem hentry
  obtain ⟨rest, hinstruction⟩ := Dialect.Rust.instruction_call callee.address values called
  have hline : Placed.written .rust ⟨line, depth + bodyLevel,
      callInstruction callee.address values called⟩ =
        [Draft.placed Dialect.Rust.spelling.indent line
          ⟨depth + bodyLevel, Dialect.Rust.path callee.address ++ "(" ++ rest⟩] := by
    show (Dialect.Rust.instruction (callInstruction callee.address values called)).map _ = _
    rw [hinstruction]
    rfl
  have hcode := h.code
  rw [writtenOf, hrust, placements_append, placements, List.flatMap_append, List.flatMap_append,
    show Effect.instructions setting _ (.code (callInstruction callee.address values called)) =
      [callInstruction callee.address values called] from rfl,
    List.map_singleton, List.flatMap_singleton, hline] at hcode
  simp only [List.append_assoc, List.singleton_append] at hcode
  rw [← List.append_assoc] at hcode
  exact ⟨s, callee, _, _, rest, hanswer, hcode⟩

end Generation

namespace Session

open Packaging (LeadsTo)

section Batched

variable {c : Configuration} {sources : Table Name String} {names : List Name}
  {units : List SourceUnit} (h : Batched c sources names units)
  (hrust : ∀ u ∈ units, u.address.target = .rust)

include h hrust

/-- A unit declares itself. -/
theorem Batched.declares {u : SourceUnit} (hu : u ∈ units) :
    Packaging.Declares u.code u.address.unitName := by
  obtain ⟨source, -, hgenerated⟩ := h.generated hu
  obtain ⟨-, header, body, haddress, -, hcode, -⟩ := Generation.ascends_lineMap hgenerated
  rw [← h.address_eq hu] at haddress hcode
  rw [hrust u hu] at hcode
  have hword : Address.IsWord u.address.unitName :=
    h.isWord hu _ (List.mem_append_right _ List.mem_cons_self)
  rw [← haddress] at hword ⊢
  exact Dialect.Rust.declares_prologue header hword hcode

/-- **The path of a unit leads to it**, and to no other. -/
theorem Batched.leadsTo_iff (hservable : Servable c sources names) {u v : SourceUnit}
    (hu : u ∈ units) (hv : v ∈ units) :
    LeadsTo (Dialect.Rust.path v.address) (u.address.package, u.code) ↔ u = v := by
  constructor
  · rintro ⟨unitName, hdeclares, hpath⟩
    obtain rfl := hdeclares.unique (h.declares hrust hu)
    have hqualified : v.address.qualified "::" = u.address.qualified "::" := by
      unfold Dialect.Rust.path at hpath
      exact (String.append_right_inj _).mp ((String.append_left_inj _).mp hpath)
    have hsegments := (Address.qualified_inj (h.isWord hv) (h.isWord hu) (c := ':') (by decide)
      (by decide)).mp hqualified
    exact h.eq_of_segments hservable hu hv ((hrust u hu).trans (hrust v hv).symm) hsegments.symm
  · rintro rfl
    exact ⟨u.address.unitName, h.declares hrust hu, rfl⟩

/-- **A call leads to the unit of the template that is called.** -/
theorem Batched.call_leads {u : SourceUnit} (hu : u ∈ units) {source : String}
    (hsource : sources.get? u.template = some source) {line depth : Nat} {called : CallKind}
    {reference : String} {arguments : List Text.Slice}
    (hcall : (⟨line, depth, .call called reference arguments⟩ : Event) ∈
      Scan.events ⟨u.template.kind, c.interest?⟩ source.toList) :
    ∃ v ∈ units, v.template = u.template.ofCall called reference ∧
      ∃ before after rest, u.code.toList = Draft.codeOf (before ++
        Draft.placed Dialect.Rust.spelling.indent line ⟨depth + bodyLevel,
          Dialect.Rust.path v.address ++ "(" ++ rest⟩ :: after) := by
  obtain ⟨other, hother, hgenerated⟩ := h.generated hu
  obtain rfl : source = other := Option.some.inj (hsource.symm.trans hother)
  have htarget : (Address.ofName u.template c.package).target = .rust := by
    rw [← h.address_eq hu]
    exact hrust u hu
  obtain ⟨entries, hunit⟩ := Generation.generated hgenerated
  obtain ⟨_, callee, before, after, rest, hanswer, hcode⟩ := hunit.call_line htarget hcall
  have hcalls : Calls c sources u.template (u.template.ofCall called reference) :=
    ⟨source, hsource, List.mem_filterMap.mpr ⟨_, hcall, rfl⟩⟩
  have hwithin := ((h.templates _).mp (List.mem_map_of_mem hu)).call hcalls
  obtain ⟨v, hv, htemplate⟩ := List.mem_map.mp ((h.templates _).mpr hwithin)
  refine ⟨v, hv, htemplate, before, after, rest, ?_⟩
  have hcallee : callee.address = v.address := by
    obtain rfl : calleeFor c sources (u.template.ofCall called reference) = callee :=
      Except.ok.inj hanswer
    rw [h.address_eq hv, htemplate]
    rfl
  rw [hcode, hcallee]

end Batched

/-- **A bundle and the calls in it agree.** The text of the bundle copies each unit
once, with just the modules of its package open around it, and opens each package
once. Wherever the batch is delivered in a bundle, and nothing fails, that text is
what is in the file of the bundle. Each call in a unit is a line of it with a path
that leads, through the modules of the bundle, to the unit of the template that is
called and to no other. -/
theorem bundle_linked {L : Type} [Library L] {s : Session L} {names : List Name} {batch : Batch}
    (h : ((generate names).run s).1 = .ok batch)
    (hrust : ∀ u ∈ batch.units, u.address.target = .rust) :
    (∃ pieces : List Packaging.Piece, Packaging.Closed pieces ∧
      Packaging.bundle batch.units = "// @generated by stencil. Do not edit.\n" ++
        Packaging.textOf (Packaging.located [] pieces) ∧
      (Packaging.unitsOf (Packaging.located [] pieces)).Perm
        (batch.units.map fun u => (u.address.package, u.code)) ∧
      (Packaging.opened (Packaging.located [] pieces)).Nodup ∧
      ∀ path, path ∈ Packaging.opened (Packaging.located [] pieces) ↔
        path ≠ [] ∧ ∃ u ∈ batch.units, path <+: u.address.package) ∧
    (∀ (here : Files.Place) (directory : String) (tree : Files.Tree),
      (Packaging.deliver .bundle here directory batch.units tree).2 = none →
        (Packaging.deliver .bundle here directory batch.units tree).1.files.get?
          (Files.destination here directory ++ [Packaging.bundleFile]) =
            some { content := Text.toBytes (Packaging.bundle batch.units).toList }) ∧
    ∃ sources, Drawn s.library sources ∧ ∀ u ∈ batch.units,
      ∃ source, sources.get? u.template = some source ∧
      ∀ line depth called reference arguments,
        (⟨line, depth, .call called reference arguments⟩ : Event) ∈
          Scan.events ⟨u.template.kind, s.configuration.interest?⟩ source.toList →
        ∃ v ∈ batch.units, v.template = u.template.ofCall called reference ∧
          (∃ before after rest, u.code.toList = Draft.codeOf (before ++
            Draft.placed Dialect.Rust.spelling.indent line ⟨depth + bodyLevel,
              Dialect.Rust.path v.address ++ "(" ++ rest⟩ :: after)) ∧
          ∀ w ∈ batch.units,
            LeadsTo (Dialect.Rust.path v.address) (w.address.package, w.code) ↔ w = v := by
  obtain ⟨sources, hdrawn, hbatched, hservable⟩ := batched_of_ok h
  refine ⟨Packaging.bundle_pieces batch.units,
    Packaging.delivered_bundle hbatched hservable hrust, sources, hdrawn, ?_⟩
  intro u hu
  obtain ⟨source, hsource, -⟩ := hbatched.generated hu
  refine ⟨source, hsource, ?_⟩
  intro line depth called reference arguments hcall
  obtain ⟨v, hv, htemplate, hcode⟩ := hbatched.call_leads hrust hu hsource hcall
  exact ⟨v, hv, htemplate, hcode, fun w hw => hbatched.leadsTo_iff hrust hservable hw hv⟩

/-- A page and the tag that it calls, each in a package of its own, delivered in a
bundle to an empty tree. -/
theorem bundle_linked_tag :
    let memory : Memory := (({} : Memory).insert ⟨"tag/x/a.stn"⟩ "a").insert ⟨"p.stn"⟩ "@tag.x.a()"
    let s : Session Memory := { configuration := {}, library := memory }
    ∃ batch, ((generate [⟨"p.stn"⟩]).run s).1 = .ok batch ∧
      batch.units.map SourceUnit.template = [⟨"tag/x/a.stn"⟩, ⟨"p.stn"⟩] ∧
      (Packaging.deliver .bundle [] "out" batch.units {}).1.files.get?
        ["out", Packaging.bundleFile] =
          some { content := Text.toBytes (Packaging.bundle batch.units).toList } ∧
      ∃ v ∈ batch.units, v.template = ⟨"tag/x/a.stn"⟩ ∧ ∀ w ∈ batch.units,
        LeadsTo (Dialect.Rust.path v.address) (w.address.package, w.code) ↔ w = v := by
  intro memory s
  have hrun : (((generate [⟨"p.stn"⟩]).run s).1.toOption.map fun batch =>
      (batch.units.map SourceUnit.template,
        (Packaging.deliver .bundle [] "out" batch.units {}).2.isNone)) =
          some ([⟨"tag/x/a.stn"⟩, ⟨"p.stn"⟩], true) := by decide +kernel
  obtain ⟨batch, hbatch, hfacts⟩ := Option.map_eq_some_iff.mp hrun
  obtain ⟨htemplates, hnone⟩ := Prod.mk.inj hfacts
  have hok := eq_ok_of_toOption hbatch
  have hrust := (served_of_ok hok).batched.forall_target htemplates (t := .rust) (by decide)
  obtain ⟨-, hdelivered, sources, hdrawn, hlinked⟩ := bundle_linked hok hrust
  refine ⟨batch, hok, htemplates, hdelivered [] "out" {} (Option.isNone_iff_eq_none.mp hnone), ?_⟩
  obtain ⟨u, hu, htemplate⟩ : ∃ u ∈ batch.units, u.template = ⟨"p.stn"⟩ :=
    List.mem_map.mp (by rw [htemplates]; decide)
  obtain ⟨source, hsource, hcalls⟩ := hlinked u hu
  have hmemory := hdrawn.get?_memory hsource
  rw [htemplate] at hmemory
  obtain rfl : "@tag.x.a()" = source := Option.some.inj hmemory
  obtain ⟨v, hv, hcallee, -, hleads⟩ := hcalls 1 0 .tag "x.a" [] (by
    rw [htemplate]
    decide +kernel)
  rw [htemplate] at hcallee
  exact ⟨v, hv, hcallee.trans (by decide), hleads⟩

end Session

end Templating
