import Templating.Dialect.Instruction
import Templating.Literal.Escape

/-!
# Units spelled in Kotlin

A unit is an object with one function, which writes to the output it is given.
A layout takes its slots as one more parameter, a function from the name of a
slot to something that writes its content. It is passed by name, since it may
follow a variable number of arguments.
-/

namespace Templating.Dialect.Kotlin

def output : String := "stencilOutput"

def outputType : String := "stencil.runtime.TemplateOutput"

def slots : String := "stencilSlots"

def slotsType : String := "java.util.function.Function<String, Runnable>"

def slotName : String := "stencilSlot"

def binaryName : String := "STENCIL_BINARY_PARTS"

def quote (text : String) : String :=
  Literal.quote .kotlin text

/-- What stands in the parentheses of a call. -/
def passed (arguments : List String) : String :=
  String.intercalate ", " (output :: arguments)

def paramText (p : Param) : String :=
  (if p.variadic then "vararg " else "") ++ p.name ++ ": " ++ p.type

def signature (h : Header) : String :=
  let params := (output ++ ": " ++ outputType) :: h.params.map paramText
  let layoutParams := if h.kind = .layout then [slots ++ ": " ++ slotsType] else []
  "@JvmStatic fun render(" ++ String.intercalate ", " (params ++ layoutParams) ++ ") \x7b"

def prologue (h : Header) : List Line :=
  (if h.address.package.isEmpty then []
    else [⟨0, "package " ++ String.intercalate "." h.address.package⟩, ⟨0, ""⟩]) ++
  h.imports.map (fun i => ⟨0, "import " ++ importPath i⟩) ++
  [⟨0, "object " ++ h.address.unitName ++ " \x7b"⟩,
    ⟨1, "const val TEMPLATE_NAME = " ++ quote h.address.template.text⟩] ++
  (if h.hasBinary then
    [⟨1, "private val " ++ binaryName ++ ": ByteArray by lazy \x7b " ++ h.address.unitName ++
      "::class.java.getResourceAsStream(\"" ++ h.address.unitName ++
      ".bin\")!!.readBytes() \x7d"⟩]
  else []) ++
  [⟨0, ""⟩, ⟨1, signature h⟩]

def instruction : Instruction → List Line
  | .text piece => [⟨0, output ++ ".writeRaw(" ++ quote piece ++ ")"⟩]
  | .binary start stop =>
      [⟨0, output ++ ".writeRawBytes(" ++ binaryName ++ ".copyOfRange(" ++ toString start ++ ", " ++
        toString stop ++ "))"⟩]
  | .value escaping code =>
      let method := match escaping with
        | .escaped => ".writeEscaped"
        | .raw => ".writeRaw"
      [⟨0, output ++ method ++ "((" ++ code ++ ").toString())"⟩]
  | .statement code => [⟨0, Text.trimmed code⟩]
  | .conditionBegin condition => [⟨0, "if (" ++ Text.trimmed condition ++ ") \x7b"⟩]
  | .conditionElseIf condition => [⟨0, "\x7d else if (" ++ Text.trimmed condition ++ ") \x7b"⟩]
  | .conditionElse => [⟨0, "\x7d else \x7b"⟩]
  | .loopBegin header => [⟨0, "for (" ++ Text.trimmed header ++ ") \x7b"⟩]
  | .blockEnd => [⟨0, "\x7d"⟩]
  | .tagCall callee arguments =>
      [⟨0, callee.identifier ++ ".render(" ++ passed arguments ++ ")"⟩]
  | .layoutBegin callee arguments =>
      [⟨0, callee.identifier ++ ".render(" ++ passed arguments ++ ", " ++ slots ++ " = " ++
        slotsType ++ " \x7b " ++ slotName ++ " ->"⟩]
  | .layoutEnd forward =>
      [⟨1, if forward then "return@Function " ++ slots ++ ".apply(" ++ slotName ++ ")"
        else "return@Function Runnable \x7b\x7d"⟩,
        ⟨0, "\x7d)"⟩]
  | .slotBegin slot =>
      [⟨1, "if (" ++ quote slot ++ " == " ++ slotName ++ ") \x7b"⟩,
        ⟨2, "return@Function Runnable \x7b"⟩]
  | .slotEnd => [⟨2, "\x7d"⟩, ⟨1, "\x7d"⟩]
  | .render slot => [⟨0, slots ++ ".apply(" ++ quote slot ++ ").run()"⟩]

def argument : Bound → String
  | .single value => value
  | .variadic values => "*arrayOf(" ++ String.intercalate ", " values ++ ")"

def spelling : Spelling where
  indent := "\t"
  prologue := prologue
  epilogue := [⟨1, "\x7d"⟩, ⟨0, "\x7d"⟩]
  instruction := instruction
  argument := argument

end Templating.Dialect.Kotlin
