/-!
# Target languages

A template compiles to source code in one of two languages, chosen by the
extension of its name.
-/

namespace Templating

inductive Target where
  | rust
  | kotlin
deriving DecidableEq, Repr

namespace Target

def label : Target → String
  | rust => "rust"
  | kotlin => "kotlin"

/-- The extension of templates for this target. -/
def templateExtension : Target → String
  | rust => "stn"
  | kotlin => "kstn"

/-- The extension of generated source files. -/
def sourceExtension : Target → String
  | rust => "rs"
  | kotlin => "kt"

/-- The target of a template with the given extension. Extensions that belong
to no target count as the first one's. -/
def ofExtension (extension : String) : Target :=
  if extension = templateExtension kotlin then kotlin else rust

theorem ofExtension_templateExtension (t : Target) :
    ofExtension t.templateExtension = t := by
  cases t <;> decide

end Target

end Templating
