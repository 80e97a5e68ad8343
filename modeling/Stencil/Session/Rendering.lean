import Stencil.Directive
import Stencil.Session.Basic

/-!
# Rendering in a session

Texts and targets are rendered as far as they can be, and the console tells of
every text that could not.
-/

namespace Stencil.Action

/-- A rendered text, or the unchanged one after a warning. -/
def render (template : Text) (vars : Variables) : Action Template.Rendered := do
  let rendered := Template.renderOrKeep template vars
  match rendered.warning? with
  | some warning => printWarning warning
  | none => pure ()
  return rendered

def renderText (template : Text) (vars : Variables) : Action Text := do
  return (← render template vars).content

/-- A text that is no template is taken as it is. -/
def renderIfTemplate (text : Text) (vars : Variables) : Action Text :=
  if Template.hasPlaceholder text then renderText text vars else return text

/-- The target of a directive, and the warnings of the journal if it could not be rendered. -/
def renderTarget (directive : Directive) (vars : Variables) : Action (Text × List Text) := do
  let rendered ← render directive.target vars
  return (rendered.content, (rendered.warning?.map directive.unrenderedWarning).toList)

end Stencil.Action
