import Templating.Proofs.Generation.Trace
import Templating.Proofs.SourceUnit.Draft

/-!
# What a unit is written in

A unit is written entry by entry: the prologue, then what each event writes,
then the epilogue. All of it is read off the trace of its generation.
-/

namespace Templating.Generation

variable {σ : Type} {setting : Setting} {linker : Linker σ}

/-! ## The entries of a unit -/

/-- The draft entries that an instruction is written in. -/
def Placed.written (t : Target) (placed : Placed) : List Draft.Written :=
  ((Dialect.spelling t).instruction placed.instruction).map fun line =>
    Draft.placed (Dialect.spelling t).indent placed.templateLine
      ⟨placed.level + line.level, line.text⟩

/-- The header that the entries of a trace give a unit. -/
def headerOf (setting : Setting) (address : Address) (kind : Kind) (entries : List Entry) :
    Dialect.Header where
  address := address
  kind := kind
  imports := (entries.map Entry.event).flatMap importsOf
  params := (entries.map Entry.event).flatMap paramsOf
  hasBinary := !(parts setting entries).isEmpty

/-- The draft entries that a unit is written in. The prologue comes from the
first line of the template, what an event writes from the line of the event,
and the epilogue from the last line. -/
def writtenOf (setting : Setting) (address : Address) (kind : Kind) (lastLine : Nat)
    (entries : List Entry) : List Draft.Written :=
  let spelling := Dialect.spelling address.target
  (spelling.prologue (headerOf setting address kind entries)).map
      (Draft.placed spelling.indent 1) ++
    (placements setting 0 entries).flatMap (Placed.written address.target) ++
    spelling.epilogue.map (Draft.placed spelling.indent lastLine)

theorem Placed.write_written (t : Target) (d : Draft) (placed : Placed)
    (hindent : d.indent = (Dialect.spelling t).indent) :
    (Dialect.write t (d.setLine placed.templateLine) placed.level placed.instruction).written.toList
      = d.written.toList ++ placed.written t := by
  rw [Dialect.write, Draft.writeLines_written, Placed.written, List.map_map]
  simp only [Draft.setLine, hindent]
  rfl

/-- The body is written instruction by instruction. -/
theorem write_body (t : Target) (body : List Placed) (d : Draft)
    (hindent : d.indent = (Dialect.spelling t).indent) :
    (body.foldl (fun d i => Dialect.write t (d.setLine i.templateLine) i.level i.instruction)
      d).written.toList = d.written.toList ++ body.flatMap (Placed.written t) ∧
    (body.foldl (fun d i => Dialect.write t (d.setLine i.templateLine) i.level i.instruction)
      d).indent = (Dialect.spelling t).indent := by
  induction body generalizing d with
  | nil => simp [hindent]
  | cons placed body ih =>
      rw [List.foldl_cons]
      have hnext : (Dialect.write t (d.setLine placed.templateLine) placed.level
          placed.instruction).indent = (Dialect.spelling t).indent := by
        rw [Dialect.write, Draft.writeLines_indent]
        exact hindent
      obtain ⟨hwritten, hindent'⟩ := ih _ hnext
      rw [hwritten, placed.write_written t d hindent, List.flatMap_cons, List.append_assoc]
      exact ⟨rfl, hindent'⟩

/-- The header of a unit is that of its trace. -/
theorem Progress.header_eq {p : Progress} {address : Address} {kind : Kind} {entries : List Entry}
    (h : Ran setting linker { address, kind } entries p) :
    p.header = headerOf setting address kind entries := by
  have himports := h.imports
  have hparams := h.params
  have hparts := h.parts
  simp only [List.nil_append] at himports hparams hparts
  have hbinary : p.binaryParts.isEmpty = (parts setting entries).isEmpty := by
    rw [← hparts, Array.isEmpty_toList]
  rw [header, headerOf, h.address, h.kind, himports, hparams, hbinary]

/-- **A draft is written in the entries of its trace.** -/
theorem Progress.written_draft {p : Progress} {address : Address} {kind : Kind}
    {entries : List Entry} (h : Ran setting linker { address, kind } entries p) :
    p.draft.written.toList = writtenOf setting address kind p.templateLine entries := by
  have hbody := h.body
  simp only [List.nil_append] at hbody
  have haddress : p.address = address := h.address
  unfold draft
  simp only
  rw [p.header_eq h, haddress, ← Array.foldl_toList, hbody, Draft.writeLines_written]
  obtain ⟨hwritten, hindent⟩ := write_body address.target (placements setting 0 entries)
    ((Dialect.draft address.target).writeLines
      ((Dialect.spelling address.target).prologue (headerOf setting address kind entries)))
    (Draft.writeLines_indent _ _)
  simp only [Draft.setLine] at hwritten hindent ⊢
  rw [hwritten, hindent, Draft.writeLines_written]
  rfl

theorem Progress.finish_eq_ok {p : Progress} {unit : SourceUnit} (h : p.finish = .ok unit) :
    p.diagnostics = #[] ∧ p.failure? = none ∧
      unit = ⟨p.address, p.draft.code, p.draft.lineMap, p.binaryParts.toList⟩ := by
  unfold finish at h
  split at h
  · rename_i hdiagnostics
    split at h
    · exact absurd h (by simp)
    · rename_i hfailure
      exact ⟨Array.isEmpty_iff.mp hdiagnostics, hfailure, (Except.ok.inj h).symm⟩
  · exact absurd h (by simp)

/-- How a unit comes from the events of its template: each event gives the unit
something, and the code, the line map and the binary are read off what the
events give. -/
structure Generated (setting : Setting) (linker : Linker σ) (address : Address) (source : String)
    (entries : List Entry) (unit : SourceUnit) : Prop where
  events : entries.map Entry.event = Scan.events ⟨address.kind, setting.interest?⟩ source.toList
  gives : ∀ entry ∈ entries, Gives linker address address.kind entry.event entry.effect
  code : unit.code.toList = Draft.codeOf
    (writtenOf setting address address.kind (1 + source.toList.count '\n') entries)
  lineMap : unit.lineMap.lines =
    (writtenOf setting address address.kind (1 + source.toList.count '\n') entries).map
      Draft.Written.templateLine
  binary : unit.binaryParts = parts setting entries

/-- **Every unit comes from the events of its template.** -/
theorem generated {address : Address} {source : String} {s : σ} {unit : SourceUnit}
    (h : ((generate setting linker address source).run s).1 = .ok unit) :
    ∃ entries, Generated setting linker address source entries unit := by
  simp only [generate, StateT.run_bind, fst_bind, StateT.run_pure, fst_pure] at h
  obtain ⟨-, hfailure, rfl⟩ := Progress.finish_eq_ok h
  obtain ⟨entries, htrace⟩ := trace_progress address address.kind source s hfailure
  generalize ((progress setting linker address address.kind source).run s).1 = p at htrace
  have hline : p.templateLine = 1 + source.toList.count '\n' := by
    rw [htrace.ran.templateLine, htrace.events, (Scan.events_numbered _ _).2]
  have hwritten := p.written_draft htrace.ran
  rw [hline] at hwritten
  refine ⟨entries, htrace.events, htrace.ran.gives, ?_, ?_, htrace.ran.parts⟩
  · rw [← hwritten]
    exact Draft.toList_code p.draft
  · rw [← hwritten]
    rfl

end Templating.Generation
