import Templating.Files.Fault
import Templating.Name

/-!
# Libraries

A library holds the sources of templates. It keeps track of changes: a template
counts as changed from the moment its source changes until the source is
fetched. Fetching is an operation on the library for that reason.
-/

namespace Templating

class Library (L : Type) where
  /-- Fetch the source of a template, `none` if there is no such template. -/
  fetch : L → Name → Except Files.Fault (Option String) × L
  /-- Whether a template changed since it was last fetched. -/
  hasChanged : L → Name → Bool
  /-- Every template that can be fetched, in order. -/
  names : L → Except Files.Fault (List Name)
  /-- No more than this many templates can be in the middle of one another. -/
  capacity : L → Nat

end Templating
