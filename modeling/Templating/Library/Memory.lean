import Templating.Library
import Templating.Table

/-!
# Libraries in memory

The sources are given one by one. A name counts as changed as soon as its
source is inserted or removed, even if it was the same before.
-/

namespace Templating

structure Memory where
  sources : Table Name String := {}
  changed : List Name := []

namespace Memory

def markChanged (m : Memory) (name : Name) : Memory :=
  if name ∈ m.changed then m else { m with changed := name :: m.changed }

def insert (m : Memory) (name : Name) (source : String) : Memory :=
  { m.markChanged name with sources := m.sources.set name source }

/-- Remove a source; says whether there was one. -/
def remove (m : Memory) (name : Name) : Bool × Memory :=
  (m.sources.contains name, { m.markChanged name with sources := m.sources.erase name })

def fetch (m : Memory) (name : Name) : Option String × Memory :=
  (m.sources.get? name, { m with changed := m.changed.filter (· ≠ name) })

instance : Library Memory where
  fetch m name := let (source?, m) := m.fetch name; (.ok source?, m)
  hasChanged m name := decide (name ∈ m.changed)
  names m := .ok (Name.sort m.sources.keys)
  capacity m := m.sources.size

end Memory

end Templating
