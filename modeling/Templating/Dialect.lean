import Templating.Dialect.Kotlin
import Templating.Dialect.Rust

/-!
# Dialects

The spelling that belongs to each target, and its use on drafts. The frame of
a unit takes two levels of indentation, so its body starts at level two.
-/

namespace Templating.Dialect

/-- How a target is spelled. -/
def spelling : Target → Spelling
  | .rust => Rust.spelling
  | .kotlin => Kotlin.spelling

/-- The level of a body that is nested in no block. -/
def bodyLevel : Nat := 2

/-- Write an instruction at a level. -/
def write (t : Target) (d : Draft) (level : Nat) (i : Instruction) : Draft :=
  d.writeLines (((spelling t).instruction i).map fun line => ⟨level + line.level, line.text⟩)

/-- An empty draft for the target. -/
def draft (t : Target) : Draft :=
  { indent := (spelling t).indent }

end Templating.Dialect
