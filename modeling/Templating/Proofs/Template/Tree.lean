import Templating.Event

/-!
# Trees of the template language

A template is written down from a tree: text, code, comments, calls, and blocks
with content of their own. `print` writes a tree and `events` is what a reading
of it has to say. Both go along the tree, and `events` carries the place that
has been reached, so that every line, depth and offset is determined.

The pieces of text at the leaves carry what makes them fit for their place:
code is nested properly, text has no directive in it, and so on.
-/

namespace Templating.Template

/-! ## The pieces of text in a tree -/

/-- The inside of a string: no quote but behind a backslash. -/
inductive Quoted : List Char → Prop where
  | nil : Quoted []
  | plain {c : Char} {cs : List Char} : c ≠ '"' → c ≠ '\\' → Quoted cs → Quoted (c :: cs)
  | escape (c : Char) {cs : List Char} : Quoted cs → Quoted ('\\' :: c :: cs)

/-- Code in which parentheses, braces and strings are nested properly. In a
list, `listed`, no comma or angle bracket stands outside of them. -/
inductive Balanced : (listed : Bool) → List Char → Prop where
  | nil {listed : Bool} : Balanced listed []
  | plain {listed : Bool} {c : Char} {cs : List Char} : c ∉ ['(', ')', '\x7b', '\x7d', '"'] →
      (listed = true → c ∉ [',', '<', '>']) → Balanced listed cs → Balanced listed (c :: cs)
  | string {listed : Bool} {inner cs : List Char} : Quoted inner → Balanced listed cs →
      Balanced listed ('"' :: (inner ++ '"' :: cs))
  | parentheses {listed : Bool} {inner cs : List Char} : Balanced false inner →
      Balanced listed cs → Balanced listed ('(' :: (inner ++ ')' :: cs))
  | braces {listed : Bool} {inner cs : List Char} : Balanced false inner →
      Balanced listed cs → Balanced listed ('\x7b' :: (inner ++ '\x7d' :: cs))

/-- Nothing in the text begins a construct. -/
def Plain (cs : List Char) : Prop :=
  '@' ∉ cs ∧ ∀ word ∈ ["$\x7b", "$unsafe\x7b", "!\x7b", "<%--"], ¬ word.toList <:+: cs

instance (cs : List Char) : Decidable (Plain cs) :=
  inferInstanceAs (Decidable ('@' ∉ cs ∧
    ∀ word ∈ ["$\x7b", "$unsafe\x7b", "!\x7b", "<%--"], ¬ word.toList <:+: cs))

/-- A stretch of text. -/
structure Run where
  chars : List Char
  nonempty : chars ≠ []
  plain : Plain chars

structure Code where
  chars : List Char
  balanced : Balanced false chars

/-- What a comment says: its end does not come early. -/
structure Remark where
  chars : List Char
  unclosed : ¬ "--%>".toList <:+: '-' :: '-' :: chars

/-- What is called. -/
structure Reference where
  chars : List Char
  nonempty : chars ≠ []
  solid : ∀ c ∈ chars, Text.isBlank c = false ∧ c ≠ '('

structure ArgumentText where
  chars : List Char
  balanced : Balanced true chars
  nonempty : chars ≠ []
  trimmed : Text.trim chars = chars

structure SlotName where
  chars : List Char
  plain : Plain chars
  trimmed : Text.trim chars = chars
  bare : '(' ∉ chars ∧ ')' ∉ chars

/-! ## Trees -/

mutual

/-- One piece of template content. -/
inductive Node where
  | text (run : Run)
  | expression (escaping : Escaping) (code : Code)
  | statement (code : Code)
  | comment (remark : Remark)
  | condition (code : Code) (body : List Node) (rest : Branches)
  | loop (header : Code) (body : List Node)
  | tag (reference : Reference) (arguments : List ArgumentText)
  | layout (reference : Reference) (arguments : List ArgumentText) (slots : List Slot)

/-- The branches of a condition behind its first one. -/
inductive Branches where
  | done
  | otherwise (body : List Node)
  | elseIf (code : Code) (body : List Node) (rest : Branches)

/-- The content of a slot in a layout call. -/
inductive Slot where
  | mk (name : SlotName) (body : List Node)

end

/-- The content begins with text. -/
def startsWithText : List Node → Bool
  | .text _ :: _ => true
  | _ => false

/-! ## Printing -/

/-- A word of the language. -/
def spell (word : String) : List Char :=
  word.toList

/-- The arguments of a call with a comma and the gap between them. -/
def printArguments (gap : List Char) : List ArgumentText → List Char
  | [] => []
  | [a] => a.chars
  | a :: rest => a.chars ++ ',' :: (gap ++ printArguments gap rest)

mutual

def Node.print (gap : List Char) : Node → List Char
  | .text run => run.chars
  | .expression .escaped code => spell "$\x7b" ++ code.chars ++ ['\x7d']
  | .expression .raw code => spell "$unsafe\x7b" ++ code.chars ++ ['\x7d']
  | .statement code => spell "!\x7b" ++ code.chars ++ ['\x7d']
  | .comment remark => spell "<%--" ++ remark.chars ++ spell "--%>"
  | .condition code body rest =>
      spell "@if(" ++ code.chars ++ [')'] ++ print gap body ++ rest.print gap ++
        spell "@endif"
  | .loop header body =>
      spell "@for(" ++ header.chars ++ [')'] ++ print gap body ++ spell "@endfor"
  | .tag reference arguments =>
      spell "@tag." ++ reference.chars ++ ['('] ++ printArguments gap arguments ++ [')']
  | .layout reference arguments slots =>
      spell "@layout." ++ reference.chars ++ ['('] ++ printArguments gap arguments ++ [')'] ++
        printSlots gap slots ++ spell "@endlayout"

def Branches.print (gap : List Char) : Branches → List Char
  | .done => []
  | .otherwise body => spell "@else" ++ print gap body
  | .elseIf code body rest =>
      spell "@elseif(" ++ code.chars ++ [')'] ++ print gap body ++ rest.print gap

def Slot.print (gap : List Char) : Slot → List Char
  | .mk name body =>
      spell "@define(" ++ name.chars ++ [')'] ++ print gap body ++ spell "@enddefine"

/-- The source of a tree, with `gap` behind the commas of its calls. -/
def print (gap : List Char) : List Node → List Char
  | [] => []
  | node :: rest => node.print gap ++ print gap rest

def printSlots (gap : List Char) : List Slot → List Char
  | [] => []
  | slot :: rest => slot.print gap ++ printSlots gap rest

end

/-! ## Trees that are read as they are written

Text that follows text would be read as one, and `@else` is not found where the
letter `i` follows. -/

mutual

def Node.Proper : Node → Prop
  | .condition _ body rest => Proper body ∧ rest.Proper
  | .loop _ body => Proper body
  | .layout _ _ slots => ProperSlots slots
  | _ => True

def Branches.Proper : Branches → Prop
  | .done => True
  | .otherwise body => Proper body ∧ (print [] body).head? ≠ some 'i'
  | .elseIf _ body rest => Proper body ∧ rest.Proper

def Slot.Proper : Slot → Prop
  | .mk _ body => Proper body

def Proper : List Node → Prop
  | [] => True
  | .text _ :: rest => startsWithText rest = false ∧ Proper rest
  | node :: rest => node.Proper ∧ Proper rest

def ProperSlots : List Slot → Prop
  | [] => True
  | slot :: rest => slot.Proper ∧ ProperSlots rest

end

/-! ## Events -/

/-- How far a source has been read. -/
structure Place where
  line : Nat := 1
  byte : Nat := 0
deriving DecidableEq

namespace Place

/-- The place behind some more text. -/
def past (p : Place) (cs : List Char) : Place :=
  ⟨p.line + cs.count '\n', p.byte + Text.byteSize cs⟩

/-- What is said at the end of a stretch of source that begins at the place,
quoting it. -/
def quote (p : Place) (depth : Nat) (cs : List Char) (body : Text.Slice → Event.Body) : Event :=
  ⟨(p.past cs).line, depth, body ⟨p.byte, String.ofList cs⟩⟩

/-- What is said at the place itself. -/
def say (p : Place) (depth : Nat) (body : Event.Body) : Event :=
  ⟨p.line, depth, body⟩

@[simp] theorem past_nil (p : Place) : p.past [] = p := rfl

@[simp] theorem past_past (p : Place) (xs ys : List Char) :
    (p.past xs).past ys = p.past (xs ++ ys) := by
  simp [past, Nat.add_assoc]

end Place

/-- The arguments of a call as slices of the source. -/
def quoteArguments (gap : List Char) (p : Place) : List ArgumentText → List Text.Slice
  | [] => []
  | a :: rest =>
      ⟨p.byte, String.ofList a.chars⟩ ::
        quoteArguments gap (p.past (a.chars ++ ',' :: gap)) rest

/-- The call that is read where the reference begins. -/
def quoteCall (gap : List Char) (p : Place) (depth : Nat) (kind : CallKind)
    (reference : Reference) (arguments : List ArgumentText) : Event :=
  let inner := p.past (reference.chars ++ ['('])
  (inner.past (printArguments gap arguments)).say depth
    (.call kind (String.ofList reference.chars) (quoteArguments gap inner arguments))

mutual

def Node.events (gap : List Char) (p : Place) (depth : Nat) : Node → List Event
  | .text run => [p.quote depth run.chars .text]
  | .expression .escaped code =>
      [(p.past (spell "$\x7b")).quote depth code.chars (.expression .escaped)]
  | .expression .raw code =>
      [(p.past (spell "$unsafe\x7b")).quote depth code.chars (.expression .raw)]
  | .statement code => [(p.past (spell "!\x7b")).quote depth code.chars .statement]
  | .comment _ => []
  | .condition code body rest =>
      let inner := p.past (spell "@if(" ++ code.chars ++ [')'])
      let behind := inner.past (print gap body)
      (p.past (spell "@if(")).quote depth code.chars .conditionBegin ::
        events gap inner (depth + 1) body ++ rest.events gap behind depth ++
        [(behind.past (rest.print gap)).say depth .conditionEnd]
  | .loop header body =>
      let inner := p.past (spell "@for(" ++ header.chars ++ [')'])
      (p.past (spell "@for(")).quote depth header.chars .loopBegin ::
        events gap inner (depth + 1) body ++ [(inner.past (print gap body)).say depth .loopEnd]
  | .tag reference arguments =>
      [quoteCall gap (p.past (spell "@tag.")) depth .tag reference arguments]
  | .layout reference arguments slots =>
      let inner := p.past (spell "@layout." ++ reference.chars ++ ['('] ++
        printArguments gap arguments ++ [')'])
      quoteCall gap (p.past (spell "@layout.")) depth .layout reference arguments ::
        eventsOfSlots gap inner depth slots ++
        [(inner.past (printSlots gap slots)).say depth .layoutEnd]

def Branches.events (gap : List Char) (p : Place) (depth : Nat) : Branches → List Event
  | .done => []
  | .otherwise body =>
      p.say depth .conditionElse :: events gap (p.past (spell "@else")) (depth + 1) body
  | .elseIf code body rest =>
      let inner := p.past (spell "@elseif(" ++ code.chars ++ [')'])
      (p.past (spell "@elseif(")).quote depth code.chars .conditionElseIf ::
        events gap inner (depth + 1) body ++ rest.events gap (inner.past (print gap body)) depth

/-- The content of a slot lies three levels deeper than its layout call. -/
def Slot.events (gap : List Char) (p : Place) (depth : Nat) : Slot → List Event
  | .mk name body =>
      let inner := p.past (spell "@define(" ++ name.chars ++ [')'])
      (p.past (spell "@define(")).quote depth name.chars .slotBegin ::
        events gap inner (depth + 3) body ++ [(inner.past (print gap body)).say depth .slotEnd]

/-- The events of a tree that is written down from the place on, at some depth
of blocks. -/
def events (gap : List Char) (p : Place) (depth : Nat) : List Node → List Event
  | [] => []
  | node :: rest =>
      node.events gap p depth ++ events gap (p.past (node.print gap)) depth rest

def eventsOfSlots (gap : List Char) (p : Place) (depth : Nat) : List Slot → List Event
  | [] => []
  | slot :: rest =>
      slot.events gap p depth ++ eventsOfSlots gap (p.past (slot.print gap)) depth rest

end

end Templating.Template
