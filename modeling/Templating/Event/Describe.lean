import Templating.Event
import Templating.Param.Declaration
import Templating.Text.Quoted

/-!
# Events as lines of text

A dump of the event stream: one line an event, with its line, its depth, its
name and what it carries.
-/

namespace Templating

namespace Event

/-- The name of the event and what it carries. -/
def Body.describe : Body → String
  | text s => "Text " ++ Text.quoted s.text
  | expression .escaped s => "SafeCode " ++ Text.quoted s.text
  | expression .raw s => "UnsafeCode " ++ Text.quoted s.text
  | statement s => "CodeStatement " ++ Text.quoted s.text
  | imported s => "Import " ++ Text.quoted s.text
  | param _ p => "Param " ++ p.declaration
  | conditionBegin s => "ConditionStart " ++ Text.quoted s.text
  | conditionElseIf s => "ConditionElseIf " ++ Text.quoted s.text
  | conditionElse => "ConditionElse"
  | conditionEnd => "ConditionEnd"
  | loopBegin s => "ForStart " ++ Text.quoted s.text
  | loopEnd => "ForEnd"
  | call kind reference arguments =>
      (match kind with
        | .tag => "TagCall "
        | .layout => "LayoutCall ") ++
      reference ++ " " ++ Text.quotedList (arguments.map Text.Slice.text)
  | layoutEnd => "LayoutEnd"
  | slotBegin s => "LayoutDefine " ++ s.text
  | slotEnd => "LayoutDefineEnd"
  | render s => "LayoutRender " ++ s.text
  | elementOpened e => "HtmlTagOpened <" ++ e.name ++ ">"
  | elementClosed e => "HtmlTagClosed </" ++ e.name ++ ">"
  | attributeBegun e a => "HtmlAttributeStarted " ++ e.name ++ "." ++ a.name
  | lineEnd => "LineFinished"
  | headerEnd => "ParamsComplete"
  | complete => "Complete"

/-- The event on a line of its own. -/
def describe (e : Event) : String :=
  toString e.line ++ ":" ++ toString e.depth ++ " " ++ e.body.describe

end Event

end Templating
