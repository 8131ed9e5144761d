import Templating.Proofs.Generation.Ascent
import Templating.Proofs.Session.Targets

/-!
# Problems of generated code in its templates

What compiles the units of a batch may find problems in lines of them. They are
reported as problems of the templates that the lines come from. A problem of a unit
always ends up in a line of the template of that unit, whatever line of the unit it
was found in.
-/

namespace Templating

namespace LineMap

/-- A generated line comes from a line within the bounds of the map, and so does one
that is not there: it counts as the first. -/
theorem templateLine?_within {m : LineMap} {high : Nat} (h : Ascends 1 high m.lines)
    (hhigh : 1 ≤ high) (generatedLine : Nat) :
    1 ≤ (m.templateLine? generatedLine).getD 1 ∧
      (m.templateLine? generatedLine).getD 1 ≤ high := by
  cases hline : m.templateLine? generatedLine with
  | none => exact ⟨Nat.le_refl 1, hhigh⟩
  | some n =>
      unfold templateLine? at hline
      split at hline
      · cases hline
      · exact h.within n (List.mem_of_getElem? hline)

end LineMap

namespace Session

section Batched

variable {c : Configuration} {sources : Table Name String} {names : List Name} {batch : Batch}

/-- The unit of an identifier is found. -/
theorem Batched.unit?_eq (h : Batched c sources names batch.units)
    (hservable : Servable c sources names) {target : Target}
    (htarget : batch.target = .ok (some target)) {u : SourceUnit} (hu : u ∈ batch.units) :
    batch.unit? u.identifier = some u := by
  unfold Batch.unit?
  cases hfound : batch.units.find? fun v => v.identifier == u.identifier with
  | none => exact absurd (List.find?_eq_none.mp hfound u hu) (by simp)
  | some v =>
      have hv := List.mem_of_find?_eq_some hfound
      have hidentifier : v.identifier = u.identifier := by simpa using List.find?_some hfound
      have hsame := (Batch.target_of_mem htarget hv).trans (Batch.target_of_mem htarget hu).symm
      rw [h.eq_of_identifier hservable hv hu hsame hidentifier]

/-- **A problem of a unit is reported in a line of its template.** -/
theorem Batched.translate_within (h : Batched c sources names batch.units)
    (hservable : Servable c sources names) {target : Target}
    (htarget : batch.target = .ok (some target)) {u : SourceUnit} (hu : u ∈ batch.units)
    {p : OutputProblem} (hp : p.identifier = u.identifier) :
    (batch.translate p).template? = some u.template ∧
      ∃ source, sources.get? u.template = some source ∧ 1 ≤ (batch.translate p).line ∧
        (batch.translate p).line ≤ 1 + source.toList.count '\n' := by
  obtain ⟨source, hsource, hgenerated⟩ := h.generated hu
  have hascends := (Generation.ascends_lineMap hgenerated).1
  unfold Batch.translate
  rw [hp, h.unit?_eq hservable htarget hu]
  exact ⟨rfl, source, hsource,
    LineMap.templateLine?_within hascends (Nat.le_add_right _ _) p.line⟩

end Batched

section Rejected

variable {L τ : Type} [Library L] {backend : Target → Backend τ} {names : List Name}
  {s : Session L} {t : τ} {batch : Batch}

/-- A served request is refused for the problems that its backend finds. -/
theorem rejected_iff (h : ((generate names).run s).1 = .ok batch) {diagnostics : List Diagnostic} :
    ((compileWith backend names).run (s, t)).1 = .error (.rejected diagnostics) ↔
      ∃ target problems, batch.target = .ok (some target) ∧
        ((backend target batch.units ((generate names).run s).2.configuration.classPath).run t).1 =
          .error (.problems problems) ∧ diagnostics = problems.map batch.translate := by
  rw [compileWith_run (Prod.ext h rfl)]
  generalize ((generate names).run s).2.configuration.classPath = classPath
  constructor
  · intro hrejected
    split at hrejected
    · rename_i failure hfailure
      rw [(Batch.target_eq_error_iff.mp hfailure).1] at hrejected
      cases hrejected
    · cases hrejected
    · rename_i target htarget
      split at hrejected
      · cases hrejected
      · cases hrejected
      · rename_i problems _ hverdict
        cases hrejected
        exact ⟨target, problems, htarget, by rw [hverdict], rfl⟩
  · rintro ⟨target, problems, htarget, hverdict, rfl⟩
    rw [htarget]
    simp only
    generalize (backend target batch.units classPath).run t = verdict at hverdict
    obtain ⟨verdict, t'⟩ := verdict
    obtain rfl : verdict = .error (.problems problems) := hverdict
    rfl

end Rejected

/-- **Line maps ascend within the template, and problems are reported there.** The
line map of every unit that is generated ascends from the first line of its template,
which the whole prologue comes from, and stays within the lines of the source. So of
whatever the backend of a request finds in a unit, be it in a line that the unit does
not have, the report has the template of the unit and a line that there is. -/
theorem lineMap_within :
    (∀ {σ : Type} (setting : Generation.Setting) (linker : Linker σ) (address : Address)
      (source : String) (s : σ) (unit : SourceUnit),
      ((Generation.generate setting linker address source).run s).1 = .ok unit →
      unit.lineMap.lines.Pairwise (· ≤ ·) ∧
      (∀ line ∈ unit.lineMap.lines, 1 ≤ line ∧ line ≤ 1 + source.toList.count '\n') ∧
      ∃ (header : Dialect.Header) (body : List Draft.Written),
        header.address = address ∧ header.kind = address.kind ∧
        unit.code.toList = Draft.codeOf (((Dialect.spelling address.target).prologue header).map
          (Draft.placed (Dialect.spelling address.target).indent 1) ++ body) ∧
        unit.lineMap.lines =
          List.replicate ((Dialect.spelling address.target).prologue header).length 1 ++
            body.map Draft.Written.templateLine) ∧
    ∀ {L τ : Type} [Library L] (backend : Target → Backend τ) (names : List Name) (s : Session L)
      (t : τ) (batch : Batch) (diagnostics : List Diagnostic),
      ((generate names).run s).1 = .ok batch →
      ((compileWith backend names).run (s, t)).1 = .error (.rejected diagnostics) →
      ∃ target problems sources, batch.target = .ok (some target) ∧
        ((backend target batch.units ((generate names).run s).2.configuration.classPath).run t).1 =
          .error (.problems problems) ∧
        diagnostics = problems.map batch.translate ∧
        Drawn s.library sources ∧
        ∀ p ∈ problems, ∀ u ∈ batch.units, p.identifier = u.identifier →
          (batch.translate p).template? = some u.template ∧
          ∃ source, sources.get? u.template = some source ∧ 1 ≤ (batch.translate p).line ∧
            (batch.translate p).line ≤ 1 + source.toList.count '\n' := by
  constructor
  · intro σ setting linker address source s unit h
    obtain ⟨hascends, hprologue⟩ := Generation.ascends_lineMap h
    exact ⟨hascends.pairwise, hascends.within, hprologue⟩
  · intro L τ _ backend names s t batch diagnostics h hrejected
    obtain ⟨sources, hdrawn, hbatched, hservable⟩ := batched_of_ok h
    obtain ⟨target, problems, htarget, hproblems, hdiagnostics⟩ :=
      (rejected_iff h).mp hrejected
    exact ⟨target, problems, sources, htarget, hproblems, hdiagnostics, hdrawn,
      fun p _ u hu hp => hbatched.translate_within hservable htarget hu hp⟩

/-- A backend that finds problems in line 0 and behind the end of a page of two lines. -/
theorem lineMap_within_page :
    let memory : Memory := ({} : Memory).insert ⟨"page.stn"⟩ "a\nb"
    let s : Session Memory := { configuration := {}, library := memory }
    let found (u : SourceUnit) : List OutputProblem :=
      [⟨u.identifier, 0, "early"⟩, ⟨u.identifier, 99, "late"⟩]
    let backend : Target → Backend Unit := fun _ units _ t =>
      (.error (.problems (units.flatMap found)), t)
    (∃ unit, ((Generation.generate {} Generation.solitary (Address.ofName ⟨"page.stn"⟩ "g")
        "a\nb").run ()).1 = .ok unit ∧ unit.lineMap.lines.Pairwise (· ≤ ·)) ∧
      ∃ diagnostics, ((compileWith backend [⟨"page.stn"⟩]).run (s, ())).1 =
          .error (.rejected diagnostics) ∧
        ∀ d ∈ diagnostics, d.template? = some ⟨"page.stn"⟩ ∧ 1 ≤ d.line ∧ d.line ≤ 2 := by
  intro memory s found backend
  constructor
  · obtain ⟨unit, hunit⟩ : ∃ unit, ((Generation.generate {} Generation.solitary
        (Address.ofName ⟨"page.stn"⟩ "g") "a\nb").run ()).1 = .ok unit := ⟨_, rfl⟩
    exact ⟨unit, hunit, (lineMap_within.1 _ _ _ _ _ _ hunit).1⟩
  · obtain ⟨batch, hok, htemplates⟩ : ∃ batch, ((generate [⟨"page.stn"⟩]).run s).1 = .ok batch ∧
        batch.units.map SourceUnit.template = [⟨"page.stn"⟩] :=
      exists_batch (by decide +kernel)
    have htarget : batch.target = .ok (some .rust) := by
      refine Batch.target_eq_some_iff.mpr fun t => ?_
      rw [(served_of_ok hok).batched.has_iff]
      cases t <;> decide
    have hrejected : ((compileWith backend [⟨"page.stn"⟩]).run (s, ())).1 =
        .error (.rejected ((batch.units.flatMap found).map batch.translate)) :=
      (rejected_iff hok).mpr ⟨.rust, _, htarget, rfl, rfl⟩
    refine ⟨_, hrejected, ?_⟩
    obtain ⟨target, problems, sources, -, hproblems, -, hdrawn, hwithin⟩ :=
      lineMap_within.2 backend [⟨"page.stn"⟩] s () batch _ hok hrejected
    obtain rfl : batch.units.flatMap found = problems :=
      Refusal.problems.inj (Except.error.inj hproblems)
    rw [List.forall_mem_map]
    intro p hp
    obtain ⟨u, hu, hfound⟩ := List.mem_flatMap.mp hp
    have hidentifier : p.identifier = u.identifier := by
      simp only [found, List.mem_cons, List.not_mem_nil, or_false] at hfound
      rcases hfound with rfl | rfl <;> rfl
    have htemplate : u.template = ⟨"page.stn"⟩ := by
      have hmem := List.mem_map_of_mem (f := SourceUnit.template) hu
      rw [htemplates] at hmem
      exact List.mem_singleton.mp hmem
    obtain ⟨hreported, source, hsource, hline⟩ := hwithin p hp u hu hidentifier
    have hmemory := hdrawn.get?_memory hsource
    rw [htemplate] at hreported hmemory
    obtain rfl : "a\nb" = source := Option.some.inj hmemory
    exact ⟨hreported, hline⟩

end Session

end Templating
