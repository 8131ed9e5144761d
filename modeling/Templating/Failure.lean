import Templating.Binding
import Templating.Diagnostic
import Templating.Files.Fault

/-!
# Failures

Why a request to compile templates fails, by cause. A failure of one call has
a code; a template that cannot be read carries diagnostics with codes of their
own.
-/

namespace Templating

inductive Failure where
  /-- No such template; unless it was requested itself, a call referred to it. -/
  | notFound (name : Name) (referencedFrom? : Option Location)
  /-- The template is there but cannot be read. -/
  | unreadable (name : Name) (cause : Files.Fault)
  /-- The template has problems. -/
  | unsound (template : Name) (diagnostics : List Diagnostic)
  /-- The arguments of a call do not fit the callee. -/
  | unbound (location : Location) (callee : Name) (problem : Binding.Problem)
  /-- Two templates would generate the same unit. -/
  | collision (identifier : String) (first second : Name)
  /-- The templates of a batch do not share one target. -/
  | mixedTargets (targets : List Target)
  /-- Whatever compiles the generated units refuses them. -/
  | rejected (diagnostics : List Diagnostic)
  /-- The output cannot be written. -/
  | unwritable (cause : Files.Fault)
  /-- The templates cannot be listed. -/
  | unlisted (cause : Files.Fault)
deriving DecidableEq, Repr

namespace Failure

/-- The code of the failure, if it has a single one. -/
def code? : Failure → Option Diagnostic.Code
  | notFound .. => some .notFound
  | unbound _ _ problem => some problem.code
  | collision .. => some .collision
  | mixedTargets _ => some .mixedTargets
  | rejected _ => some .rejectedOutput
  | unreadable .. | unsound .. | unwritable _ | unlisted _ => none

def diagnostics : Failure → List Diagnostic
  | unsound _ diagnostics | rejected diagnostics => diagnostics
  | _ => []

/-- A heading and the diagnostics below it. -/
def listed (heading : String) (diagnostics : List Diagnostic) : String :=
  heading ++ String.join (diagnostics.map fun d => "\n  " ++ d.shown)

def message : Failure → String
  | notFound name none => name.text ++ " not found"
  | notFound name (some location) => name.text ++ " not found, referenced at " ++ location.shown
  | unreadable name cause => "failed to read " ++ name.text ++ ": " ++ cause.message
  | unsound template diagnostics => listed (template.text ++ " failed to parse") diagnostics
  | unbound location callee (.missing param) =>
      location.shown ++ ": missing required argument `" ++ param ++ "` for " ++ callee.text
  | unbound location callee problem =>
      location.shown ++ ": invalid arguments for " ++ callee.text ++ ": " ++ problem.message
  | collision identifier first second =>
      second.text ++ " and " ++ first.text ++ " both generate `" ++ identifier ++ "`"
  | mixedTargets targets =>
      "a batch must target a single language, found " ++
        String.intercalate ", " (targets.map Target.label)
  | rejected diagnostics => listed "failed to compile generated units" diagnostics
  | unwritable cause => "failed to write generated output: " ++ cause.message
  | unlisted cause => "failed to list templates: " ++ cause.message

end Failure

end Templating
