import Templating.Generation
import Templating.Text.Quoted

/-!
# Configurations

Everything that compile requests depend on beside the sources.
-/

namespace Templating

/-- In what files the units of a batch are delivered. -/
inductive Delivery where
  /-- All units in one file. -/
  | bundle
  /-- One file a unit. -/
  | separate
deriving DecidableEq, Repr

namespace Delivery

/-- The delivery that suits a target. -/
def ofTarget : Target → Delivery
  | .rust => bundle
  | .kotlin => separate

def label : Delivery → String
  | bundle => "RustBundle"
  | separate => "KotlinSources"

end Delivery

structure Configuration where
  /-- The root package of generated units. -/
  package : String := Address.defaultRoot
  interest? : Option Markup.Interest := none
  hook? : Option Hook := none
  binaryThreshold? : Option Nat := none
  maxLiteral : Nat := 8192
  /-- The directory that output goes to. -/
  output : String := "stencil-generated"
  /-- Handed to whatever compiles the output. -/
  classPath : List String := []
  /-- The delivery to use instead of the one that suits the target. -/
  delivery? : Option Delivery := none

namespace Configuration

/-- Set the longest literal; a literal holds at least one byte. -/
def withMaxLiteral (c : Configuration) (n : Nat) : Configuration :=
  { c with maxLiteral := max n 1 }

/-- What the generation of a unit depends on. -/
def generation (c : Configuration) : Generation.Setting :=
  ⟨c.interest?, c.binaryThreshold?, c.maxLiteral⟩

/-- An optional value in a dump. -/
def shownOption {α : Type} (shown : α → String) : Option α → String
  | some a => "Some(" ++ shown a ++ ")"
  | none => "None"

def shownInterest (i : Markup.Interest) : String :=
  "HtmlConfig \x7b tags: " ++ Text.quotedList i.tags ++ ", attributes: " ++
    Text.quotedList i.attributes ++ " \x7d"

/-- The configuration as it is shown in a dump. -/
def shown (c : Configuration) : String :=
  "CompilerConfig \x7b package_name: " ++ Text.quoted c.package ++
    ", html: " ++ shownOption shownInterest c.interest? ++
    ", html_hook: " ++ toString c.hook?.isSome ++
    ", binary_text_threshold: " ++ shownOption toString c.binaryThreshold? ++
    ", max_literal_len: " ++ toString c.maxLiteral ++
    ", output_dir: " ++ Text.quoted c.output ++
    ", class_path: " ++ Text.quotedList c.classPath ++
    ", backend: " ++ shownOption Delivery.label c.delivery? ++ " \x7d"

end Configuration

end Templating
