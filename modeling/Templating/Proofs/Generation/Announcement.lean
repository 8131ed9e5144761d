import Templating.Proofs.Generation.Keeps
import Templating.Proofs.Generation.View
import Templating.Proofs.Scan.Framing

/-!
# The announcement of parameters

While a template is generated its linker is asked one thing after the other. A
linker that takes notes shows what it is asked: first that the parameters of the
template are declared, all of them, and from then on only calls and text for the
markup. So a callee that is generated for a call of this template, even one that
calls it back, finds its parameters.
-/

namespace Templating.Generation

open Scan (OfContent HasHeader NumberedFrom EnteredOn Signal State Timely events lineEnds problems
  signals)

/-- What a linker is asked. -/
inductive Query where
  | resolve (call : CallRef)
  | declare (template : Name) (params : List Param)
  | intercept (place : Interception)

/-- Note down the query and answer it. -/
def noted {σ α : Type} (q : Query) (answer : StateM σ α) : StateM (σ × List Query) α := do
  let (s, asked) ← get
  let (a, s) := answer.run s
  set (s, asked ++ [q])
  return a

/-- The linker, taking notes of all it is asked. -/
def noting {σ : Type} (linker : Linker σ) : Linker (σ × List Query) where
  resolve call := noted (.resolve call) (linker.resolve call)
  declare template params := noted (.declare template params) (linker.declare template params)
  intercept place := noted (.intercept place) (linker.intercept place)

variable {σ : Type} {setting : Setting} {linker : Linker σ}

theorem noted_run {α : Type} (q : Query) (answer : StateM σ α) (s : σ) (asked : List Query) :
    (noted q answer).run (s, asked) =
      ((answer.run s).1, ((answer.run s).2, asked ++ [q])) := rfl

/-- Taking notes does not show. -/
theorem noting_shows (linker : Linker σ) (caller : Name) (callable : List Name) :
    Shows (noting linker) linker Prod.fst caller callable fun _ => True where
  resolve _ _ _ _ _ := ⟨rfl, fun _ => trivial⟩
  intercept _ _ _ := ⟨rfl, trivial⟩

namespace Progress

theorem addText_params (p : Progress) (setting : Setting) (level : Nat) (text : String) :
    (p.addText setting level text).params = p.params := by
  unfold addText
  split
  · rfl
  · rw [addLiterals_eq]

theorem addCall_params (p : Progress) (level line : Nat) (kind : CallKind) (name : Name)
    (arguments : List Text.Slice) (answer : Except Failure Callee) :
    (p.addCall level line kind name arguments answer).params = p.params := by
  cases answer with
  | error failure => rfl
  | ok callee =>
      unfold addCall
      simp only
      split <;> rfl

variable (setting linker) in
/-- Content declares no parameters. -/
theorem takeEvent_params (p : Progress) {e : Event} (he : OfContent e) (s : σ) :
    ((p.takeEvent setting linker e).run s).1.params = p.params := by
  by_cases hp : p.failure?.isSome = true
  · rw [takeEvent_failed hp]
  · have hp' : p.failure? = none := by simpa using hp
    obtain ⟨line, depth, body⟩ := e
    cases body with
    | param declaration param => exact absurd rfl (he.2.1 _ _)
    | _ =>
        simp [takeEvent, hp', interception?, instruction?, addText_params, addCall_params, add,
          -bind_pure_comp]

end Progress

variable (setting) in
/-- **A run over the content** declares nothing and keeps what answers to calls and
text for the markup keep. -/
theorem run_content {P : σ → Prop} (hresolve : ∀ call, Keeps P (linker.resolve call))
    (hintercept : ∀ place, Keeps P (linker.intercept place)) (signals : List Signal)
    (hcontent : ∀ e ∈ signals.filterMap Signal.event?, OfContent e) (p : Progress) {s : σ}
    (hs : P s) :
    ((signals.foldlM (Progress.take setting linker) p).run s).1.params = p.params ∧
      P ((signals.foldlM (Progress.take setting linker) p).run s).2 := by
  induction signals generalizing p s with
  | nil => exact ⟨rfl, hs⟩
  | cons x signals ih =>
      cases x with
      | problem problem => exact ih hcontent (p.addDiagnostic problem.diagnostic) hs
      | event e =>
          obtain ⟨he, hrest⟩ := List.forall_mem_cons.mp
            (show ∀ x ∈ e :: signals.filterMap Signal.event?, OfContent x from hcontent)
          have hkept : P ((p.takeEvent setting linker e).run s).2 := by
            by_cases hp : p.failure? = none
            · rcases Progress.takeEvent_content setting hp he with
                ⟨-, q, htake⟩ | ⟨-, place, htake⟩ | ⟨call, arguments, -, -, htake⟩
              · rwa [htake]
              · rw [htake]
                exact hintercept place s hs
              · rw [htake]
                exact hresolve call s hs
            · simpa [Progress.takeEvent, Option.isSome_iff_ne_none.mpr hp] using hs
          have hparams := Progress.takeEvent_params setting linker p he s
          rw [run_cons]
          obtain ⟨hsame, hend⟩ := ih hrest ((p.takeEvent setting linker e).run s).1 hkept
          exact ⟨hsame.trans hparams, hend⟩

/-- **The parameters of a template are announced once**, all of them, and before
anything else is asked. -/
theorem progress_announces (setting : Setting) (linker : Linker σ) (address : Address)
    (source : String) (s : σ) : ∃ (done : Progress) (reached : σ) (rest : List Query),
      (progress setting linker address address.kind source).run s = (done, reached) ∧
      (progress setting (noting linker) address address.kind source).run (s, []) =
        (done, (reached, .declare address.template done.params.toList :: rest)) ∧
      ∀ template params, Query.declare template params ∉ rest := by
  obtain ⟨p, content, -, haddress, hparams, hcontent, -, hrun⟩ :=
    progress_content setting address source
  let first : Query := .declare address.template (declared setting address.template source)
  -- Behind the announcement nothing but calls and text is asked.
  let Noted (state : σ × List Query) : Prop :=
    ∃ rest, state.2 = first :: rest ∧ ∀ template params, Query.declare template params ∉ rest
  have hnoted {α : Type} (q : Query) (answer : StateM σ α)
      (hq : ∀ template params, Query.declare template params ≠ q) :
      Keeps Noted (noted q answer) := by
    rintro ⟨s, asked⟩ ⟨rest, hasked, hrest⟩
    refine ⟨rest ++ [q], ?_, ?_⟩
    · rw [noted_run, show asked = first :: rest from hasked]
      rfl
    · intro template params hmem
      rcases List.mem_append.mp hmem with hmem | hmem
      · exact hrest template params hmem
      · exact hq template params (List.mem_singleton.mp hmem)
  let begun : σ × List Query := (((linker.declare address.template
    (declared setting address.template source)).run s).2, [first])
  have hbegun : Noted begun := ⟨[], rfl, by simp⟩
  have hnoting : (progress setting (noting linker) address address.kind source).run (s, []) =
      (content.foldlM (Progress.take setting (noting linker)) p).run begun :=
    hrun (noting linker) (s, [])
  have hplain := hrun linker s
  have hresolve : ∀ call, Keeps Noted ((noting linker).resolve call) :=
    fun call => hnoted _ _ (by simp)
  have hintercept : ∀ place, Keeps Noted ((noting linker).intercept place) :=
    fun place => hnoted _ _ (by simp)
  obtain ⟨hsame, rest, hasked, hrest⟩ :=
    run_content setting hresolve hintercept content hcontent p hbegun
  have hshown := (run_shows setting (noting_shows linker address.template _) content hcontent
    (fun _ hn => hn) (by rw [haddress]) (s := begun) fun _ => trivial).1
  rw [hnoting, hplain]
  generalize (content.foldlM (Progress.take setting (noting linker)) p).run begun = reached
    at hsame hasked hshown
  obtain ⟨done, state, asked⟩ := reached
  obtain rfl : asked = first :: rest := hasked
  refine ⟨done, state, rest, hshown, ?_, hrest⟩
  rw [show done.params = p.params from hsame, hparams]

/-- **How the signals of a template are framed.** Its events have one header, and
`complete` is the last of them and the only one. There is a line end for every newline
that is read, wherever it stands. Events and problems are on the line that the ends
of lines before them count; only the problem at the end of the input is on the line
where the construct it names was entered. So whatever linker a unit is generated with
is told the parameters first, and all of them, and only once. -/
theorem signals_framed (setting : Scan.Setting) (source : List Char) :
    HasHeader (events setting source) ∧
    (∃ es e, events setting source = es ++ [e] ∧ e.body = .complete ∧
      ∀ x ∈ es, x.body ≠ .complete) ∧
    (∀ read after, source = read ++ after →
      (State.through setting {} read after).signals <+: signals setting source ∧
      lineEnds (State.through setting {} read after).events = read.count '\n') ∧
    lineEnds (events setting source) = source.count '\n' ∧
    NumberedFrom 1 (events setting source) ∧
    Timely (signals setting source) ∧
    (∀ line k, ⟨line, .unterminated k⟩ ∈ problems setting source →
      EnteredOn setting source k line) ∧
    ∀ {σ : Type} (setting : Generation.Setting) (linker : Linker σ) (address : Address)
      (source : String) (s : σ), ∃ (done : Progress) (reached : σ) (rest : List Query),
        (progress setting linker address address.kind source).run s = (done, reached) ∧
        (progress setting (noting linker) address address.kind source).run (s, []) =
          (done, (reached, .declare address.template done.params.toList :: rest)) ∧
        ∀ template params, Query.declare template params ∉ rest := by
  obtain ⟨hnumbered, hcount⟩ := Scan.events_numbered setting source
  refine ⟨Scan.events_hasHeader setting source, Scan.events_complete setting source, ?_, hcount,
    hnumbered, Scan.signals_timely setting source, ?_, ?_⟩
  · rintro read after rfl
    exact Scan.through_lineEnds setting read after
  · intro line k hproblem
    exact Scan.unterminated_entered setting source hproblem
  · exact fun setting linker address source s =>
      progress_announces setting linker address source s

end Templating.Generation
