import Templating.Configuration

/-!
# Command line options

The options of the commands that compile. Each may be given more than once, and
the last one counts.
-/

namespace Templating

structure Options where
  output? : Option String := none
  package? : Option String := none
  tags : List String := []
  attributes : List String := []
  binaryThreshold? : Option Nat := none
  maxLiteral? : Option Nat := none
deriving DecidableEq, Repr

namespace Options

/-- Why the options cannot be read. -/
inductive Fault where
  | missingDirectory
  /-- An option that takes a number has something else. -/
  | notNumber (option : String)
  | unknown (option : String)
deriving DecidableEq, Repr

def Fault.message : Fault → String
  | missingDirectory => "`-o` needs a directory"
  | notNumber option => "'" ++ option ++ "' expects a non-negative number"
  | unknown option => "unknown option '" ++ option ++ "'"

/-- The greatest number that can be given, that of eight bytes. -/
def maxNumber : Nat := 0xffffffffffffffff

/-- A number in decimal digits, at least one, with or without a plus sign. -/
def number? (text : List Char) : Option Nat :=
  let digits := match text with
    | '+' :: rest => rest
    | _ => text
  if digits.isEmpty || !digits.all Char.isDigit then none
  else
    let n := digits.foldl (fun n d => 10 * n + (d.toNat - '0'.toNat)) 0
    if n ≤ maxNumber then some n else none

/-- What follows the word, if the text begins with it. -/
def after? (word : String) (text : String) : Option (List Char) :=
  if word.toList.isPrefixOf text.toList then some (text.toList.drop word.toList.length) else none

/-- The items between commas, without the blanks around them and without empty
ones. -/
def items (text : List Char) : List String :=
  (((Text.pieces ',' text).map Text.trim).filter fun item => !item.isEmpty).map String.ofList

/-- Take an option that is one argument. -/
def takeOne (o : Options) (argument : String) : Except Fault Options :=
  let count (text : List Char) : Except Fault Nat :=
    match number? text with
    | some n => .ok n
    | none => .error (.notNumber argument)
  match after? "--output=" argument, after? "--package=" argument,
    after? "--html-tags=" argument, after? "--html-attributes=" argument,
    after? "--binary-threshold=" argument, after? "--max-literal=" argument with
  | some text, _, _, _, _, _ => .ok { o with output? := some (String.ofList text) }
  | _, some text, _, _, _, _ => .ok { o with package? := some (String.ofList text) }
  | _, _, some text, _, _, _ => .ok { o with tags := items text }
  | _, _, _, some text, _, _ => .ok { o with attributes := items text }
  | _, _, _, _, some text, _ => do return { o with binaryThreshold? := some (← count text) }
  | _, _, _, _, _, some text => do return { o with maxLiteral? := some (← count text) }
  | _, _, _, _, _, _ => .error (.unknown argument)

/-- Take all options. -/
def take (o : Options) : List String → Except Fault Options
  | [] => .ok o
  | ["-o"] => .error .missingDirectory
  | "-o" :: directory :: rest => take { o with output? := some directory } rest
  | argument :: rest => do (← o.takeOne argument).take rest

/-- Read the arguments that follow the command and what it is applied to. -/
def ofArguments (arguments : List String) : Except Fault Options :=
  take {} arguments

/-- The configuration that the options ask for. -/
def configuration (o : Options) : Configuration :=
  let c : Configuration := {}
  let c := { c with
    output := o.output?.getD c.output
    package := o.package?.getD c.package
    interest? := if o.tags.isEmpty then none else some ⟨o.tags, o.attributes⟩
    binaryThreshold? := o.binaryThreshold? }
  match o.maxLiteral? with
  | some n => c.withMaxLiteral n
  | none => c

end Options

end Templating
