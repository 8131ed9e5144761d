import Templating.Dialect
import Templating.Proofs.Literal.Decode
import Templating.Proofs.SourceUnit.Draft
import Templating.Text.Utf8

/-!
# Writes of static text

Two instructions write static text: one writes a literal, the other a range of the
binary. Each of them is spelled on a line of its own. `Static` is such a write as it
stands in the code, with the line that it is and with the bytes that it stands for.
-/

namespace Templating.Dialect

/-- A write of static text, as it is spelled. -/
inductive Static where
  | literal (spelled : String)
  | range (start stop : Nat)

/-- The write of static text that an instruction is. -/
def static? (t : Target) : Instruction → Option Static
  | .text piece => some (.literal (Literal.quote t piece))
  | .binary start stop => some (.range start stop)
  | _ => none

/-! ## The lines of the writes -/

/-- The line that a write is. A literal is in it as it is spelled, a range by the
places in the binary where it starts and where it stops. -/
def Static.line (t : Target) : Static → String
  | literal spelled =>
      match t with
      | .rust => Rust.output ++ ".write_raw(" ++ spelled ++ ");"
      | .kotlin => Kotlin.output ++ ".writeRaw(" ++ spelled ++ ")"
  | range start stop =>
      match t with
      | .rust => Rust.output ++ ".write_raw_bytes(&" ++ Rust.binaryName ++ "[" ++
          toString start ++ ".." ++ toString stop ++ "]);"
      | .kotlin => Kotlin.output ++ ".writeRawBytes(" ++ Kotlin.binaryName ++ ".copyOfRange(" ++
          toString start ++ ", " ++ toString stop ++ "))"

/-- **An instruction that writes static text is spelled on one line**, that of the
write. -/
theorem instruction_of_static {t : Target} {i : Instruction} {write : Static}
    (h : static? t i = some write) : (spelling t).instruction i = [⟨0, write.line t⟩] := by
  cases i with
  | text piece =>
      obtain rfl := Option.some.inj h
      cases t <;> rfl
  | binary start stop =>
      obtain rfl := Option.some.inj h
      cases t <;> rfl
  | _ => exact absurd h (by simp [static?])

example : (spelling .rust).instruction (.binary 3 17) =
    [⟨0, "stencil_output.write_raw_bytes(&STENCIL_BINARY_PARTS[3..17]);"⟩] := by decide

/-- What an instruction at this level adds to a draft. -/
def linesAt (t : Target) (level templateLine : Nat) (i : Instruction) : List Draft.Written :=
  ((spelling t).instruction i).map fun line =>
    Draft.placed (spelling t).indent templateLine ⟨level + line.level, line.text⟩

/-- The lines of a body and the writes of static text in it, in the same order. Each
write is a line; the other lines are those of instructions that write no static
text. -/
inductive Writes (t : Target) : List Static → List Draft.Written → Prop
  | nil : Writes t [] []
  | static (write : Static) (level templateLine : Nat) {writes : List Static}
      {lines : List Draft.Written} (h : Writes t writes lines) :
      Writes t (write :: writes)
        (Draft.placed (spelling t).indent templateLine ⟨level, write.line t⟩ :: lines)
  | other {i : Instruction} (hi : static? t i = none) (level templateLine : Nat)
      {writes : List Static} {lines : List Draft.Written} (h : Writes t writes lines) :
      Writes t writes (linesAt t level templateLine i ++ lines)

/-- The next instruction. -/
theorem Writes.cons {t : Target} {writes : List Static} {lines : List Draft.Written}
    (h : Writes t writes lines) (level templateLine : Nat) (i : Instruction) :
    Writes t ((static? t i).toList ++ writes) (linesAt t level templateLine i ++ lines) := by
  cases hi : static? t i with
  | none => exact .other hi level templateLine h
  | some write =>
      rw [linesAt, instruction_of_static hi]
      exact .static write level templateLine h

namespace Static

def range? : Static → Option (Nat × Nat)
  | literal _ => none
  | range start stop => some (start, stop)

/-- The bytes from `start` to `stop`, if there are as many. -/
def slice? (binary : List UInt8) (start stop : Nat) : Option (List UInt8) :=
  if start ≤ stop ∧ stop ≤ binary.length then some ((binary.drop start).take (stop - start))
  else none

/-- The bytes that a write stands for: its literal is read by the rules of the
target. -/
def bytes? (t : Target) (binary : List UInt8) : Static → Option (List UInt8)
  | literal spelled => (Literal.unquote? t spelled).map Text.toBytes
  | range start stop => slice? binary start stop

/-- The bytes that writes stand for, one after the other. -/
def allBytes? (t : Target) (binary : List UInt8) : List Static → Option (List UInt8)
  | [] => some []
  | write :: writes =>
      (write.bytes? t binary).bind fun bytes => (allBytes? t binary writes).map (bytes ++ ·)

theorem allBytes?_append {t : Target} {binary : List UInt8} {xs ys : List Static}
    {a b : List UInt8} (hxs : allBytes? t binary xs = some a)
    (hys : allBytes? t binary ys = some b) :
    allBytes? t binary (xs ++ ys) = some (a ++ b) := by
  induction xs generalizing a with
  | nil =>
      obtain rfl : [] = a := Option.some.inj hxs
      exact hys
  | cons write xs ih =>
      simp only [allBytes?, Option.bind_eq_some_iff, Option.map_eq_some_iff] at hxs
      obtain ⟨bytes, hbytes, rest, hrest, rfl⟩ := hxs
      rw [List.cons_append, allBytes?, hbytes, Option.bind_some, ih hrest, Option.map_some,
        List.append_assoc]

theorem slice?_middle (front middle back : List UInt8) :
    slice? (front ++ middle ++ back) front.length (front.length + middle.length) =
      some middle := by
  unfold slice?
  rw [if_pos (by simp), Nat.add_sub_cancel_left, List.append_assoc, List.drop_left, List.take_left]

/-- The ranges lie one behind the other, from `start` to `stop`. -/
def Tile : Nat → List (Nat × Nat) → Nat → Prop
  | start, [], stop => start = stop
  | start, (a, b) :: ranges, stop => a = start ∧ a ≤ b ∧ Tile b ranges stop

theorem Tile.append {xs ys : List (Nat × Nat)} {start middle stop : Nat}
    (hxs : Tile start xs middle) (hys : Tile middle ys stop) : Tile start (xs ++ ys) stop := by
  induction xs generalizing start with
  | nil =>
      obtain rfl : start = middle := hxs
      exact hys
  | cons range xs ih =>
      obtain ⟨hstart, hle, hrest⟩ := hxs
      exact ⟨hstart, hle, ih hrest⟩

end Static

end Templating.Dialect
