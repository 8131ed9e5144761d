import Templating.Proofs.Dialect.Binary
import Templating.Proofs.Dialect.Statics
import Templating.Proofs.Generation.Written
import Templating.Proofs.Scan.Verbatim

/-!
# Static text

A unit writes the static text of its template in literals and in ranges of its
binary. Both stand for bytes: a literal for what a compiler reads in it, a range
for that part of the binary. Put together, what they stand for is the text of
the template, and each of them is a line of the code.
-/

namespace Templating.Generation

open Dialect (Static static?)
open Dialect.Static (allBytes? slice? Tile)
open Event (runs)

variable {σ : Type} {setting : Setting} {linker : Linker σ}

/-! ## The account of static text -/

/-- The writes account for the runs of static text: what they stand for is the
runs, and their ranges go through the binary from `start` to `stop`, each of them
being one long run. -/
structure Accounts (setting : Setting) (t : Target) (binary : List UInt8) (start stop : Nat)
    (writes : List Static) (texts : List String) : Prop where
  bytes : allBytes? t binary writes = some (Text.toBytes (texts.flatMap String.toList))
  ranges : Tile start (writes.filterMap Static.range?) stop
  whole : (writes.filterMap Static.range?).map (fun r => slice? binary r.1 r.2) =
    (texts.filter setting.isLong).map fun text => some (Text.toBytes text.toList)

namespace Accounts

variable {t : Target} {binary : List UInt8} {start middle stop : Nat} {xs ys : List Static}
  {us vs : List String}

theorem nil (setting : Setting) (t : Target) (binary : List UInt8) (start : Nat) :
    Accounts setting t binary start start [] [] :=
  ⟨rfl, rfl, rfl⟩

theorem append (h : Accounts setting t binary start middle xs us)
    (h' : Accounts setting t binary middle stop ys vs) :
    Accounts setting t binary start stop (xs ++ ys) (us ++ vs) := by
  refine ⟨?_, ?_, ?_⟩
  · rw [List.flatMap_append, Text.toBytes_append]
    exact Static.allBytes?_append h.bytes h'.bytes
  · rw [List.filterMap_append]
    exact h.ranges.append h'.ranges
  · rw [List.filterMap_append, List.map_append, h.whole, h'.whole, List.filter_append,
      List.map_append]

/-- A long text is written as a range of the binary. -/
theorem range {text : String} (h : setting.isLong text = true) (t : Target)
    (front back : List UInt8) :
    Accounts setting t (front ++ Text.toBytes text.toList ++ back) front.length
      (front.length + Text.byteSize text.toList)
      [.range front.length (front.length + Text.byteSize text.toList)] [text] := by
  have hslice := Static.slice?_middle front (Text.toBytes text.toList) back
  rw [Text.length_toBytes] at hslice
  refine ⟨?_, ?_, ?_⟩
  · rw [allBytes?, Static.bytes?, hslice, List.flatMap_singleton]
    simp [allBytes?]
  · exact ⟨rfl, Nat.le_add_right _ _, rfl⟩
  · rw [List.filter_cons_of_pos h]
    exact congrArg (fun bytes => [bytes]) hslice

end Accounts

/-! ## What a trace writes -/

/-- Nothing has gone wrong so far. -/
def Progress.IsSound (p : Progress) : Prop :=
  p.failure? = none ∧ p.diagnostics = #[]

theorem Progress.IsSound.addText {p : Progress} (h : p.IsSound) (setting : Setting) (level : Nat)
    (text : String) : (p.addText setting level text).IsSound := by
  unfold Progress.addText
  split
  · exact h
  · rw [Progress.addLiterals_eq]
    exact h

/-- What a template without directives says does no harm. -/
theorem Progress.IsSound.takeEvent {p : Progress} (h : p.IsSound) {e : Event}
    (he : e.body.isVerbatim = true) (s : σ) :
    ((p.takeEvent setting linker e).run s).1.IsSound := by
  obtain ⟨line, depth, body⟩ := e
  have hput (place : Interception) : (p.addText setting (depth + Dialect.bodyLevel)
      ((linker.intercept place).run s).1).IsSound := h.addText _ _ _
  cases body with
  | text run => simpa [Progress.takeEvent, h.1] using h.addText setting _ run.text
  | elementOpened e =>
      simpa [Progress.takeEvent, h.1, Progress.interception?, -bind_pure_comp] using hput _
  | elementClosed e =>
      simpa [Progress.takeEvent, h.1, Progress.interception?, -bind_pure_comp] using hput _
  | attributeBegun e a =>
      simpa [Progress.takeEvent, h.1, Progress.interception?, -bind_pure_comp] using hput _
  | lineEnd => constructor <;> simp [Progress.takeEvent, h.1, h.2]
  | headerEnd => simpa [Progress.takeEvent, h.1, -bind_pure_comp] using h
  | complete =>
      simpa [Progress.takeEvent, h.1, Progress.interception?, Progress.instruction?] using h
  | _ => exact absurd he (by simp [Event.Body.isVerbatim])

end Templating.Generation
