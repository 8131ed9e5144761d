import Templating.Scan.Code
import Templating.Scan.Markup
import Templating.Scan.Structure

/-!
# Scanning a template

`scan` reads a template once and returns its signals in order: the events, and
among them the problems it met. Every newline is an event of its own, wherever
it stands, and `complete` comes last.
-/

namespace Templating.Scan

namespace State

/-- Read the character `c` outside code. -/
def readText (s : State) (setting : Setting) (c : Char) (after : List Char) : State :=
  match Directive.endingAt? s.before after with
  | some d => s.obey d
  | none =>
      match c, s.top, Markup.Interest.active? setting.interest? with
      | '(', _, _ => s.parenthesisBegins
      | ')', _, _ => s.parenthesisEnds setting.kind
      | _, .text, some interest => s.followMarkup interest c after
      | _, _, _ => s

/-- Read the character `c`, which `advance` has just taken. -/
def readChar (s : State) (setting : Setting) (c : Char) (after : List Char) : State :=
  match s.top with
  | .comment => if ['>', '%', '-', '-'].isPrefixOf s.before then s.pop.settle else s
  | .string escaping => s.readString c escaping
  | .imported | .param => if c = '\n' then s.endDeclaration 1 else s
  | .reference kind => if c = '(' then s.beginArguments kind else s
  | .expression _ | .statement | .block | .parentheses | .loopHeader | .arguments .. =>
      s.readCode c after
  | .text | .condition | .conditionElseIf | .loop | .layoutBody | .slot | .render =>
      s.readText setting c after

/-- At a newline the line is over. -/
def endLine (s : State) (c : Char) : State :=
  if c = '\n' then { s.emit .lineEnd with line := s.line + 1 } else s

/-- Take the character `c`, which `after` follows. -/
def step (s : State) (setting : Setting) (c : Char) (after : List Char) : State :=
  ((s.advance c).readChar setting c after).endLine c

/-- Take all characters. -/
def run (setting : Setting) : State → List Char → State
  | s, [] => s
  | s, c :: cs => run setting (s.step setting c cs) cs

/-- The input ends. A declaration may end with it; the innermost construct that
is still open is reported. -/
def finish (s : State) : State :=
  let s := if s.top = .imported ∨ s.top = .param then s.endDeclaration 0 else s
  let s := (s.flush 0).settle
  let s := match s.stack.find? fun frame => frame.construct != .text with
    | some frame => s.signal (.problem ⟨frame.line, .unterminated frame.construct⟩)
    | none => s
  s.emit .complete

end State

/-- Everything there is to say about a template, in order. -/
def signals (setting : Setting) (source : List Char) : List Signal :=
  (State.run setting {} source).finish.said.reverse

/-- The events of a template. -/
def events (setting : Setting) (source : List Char) : List Event :=
  (signals setting source).filterMap Signal.event?

/-- The problems of a template. -/
def problems (setting : Setting) (source : List Char) : List Problem :=
  (signals setting source).filterMap Signal.problem?

end Templating.Scan
