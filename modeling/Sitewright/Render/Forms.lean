import Sitewright.Render.Reply

/-!
Contract: forms of actions, their submit buttons, and buttons with a form of
their own.
-/

namespace Sitewright.Render

open Markup

/-- Fails if a form is open already. -/
def requireNoForm (construct : Construct) : Render Unit := do
  let setting ← setting
  if setting.scope.form.isSome then misuse construct "form actions cannot be nested"
  else pure ()

/-- What a form of an action tells its submit buttons. -/
def openForm (action : Action) (refresh : Refresh) (id : String) : OpenForm :=
  { action := action.identity, id, islands := refresh.islandIds action, items := refresh.items }

def form (action : Action) (refresh : Refresh) (attributes : Attributes)
    (children : Render String) : Render String := do
  requireNoForm .form
  let id ← nextFormId
  inScope (fun scope => scope.inForm (openForm action refresh id))
    (element "form" (attributes.set "id" (.string id)) children)

/-- A button that posts the form around, which must be one of its own action. -/
def submit (action : Action) (attributes : Attributes) (children : Render String) :
    Render String := do
  let setting ← setting
  match setting.scope.form with
  | none => misuse .submit "submit button used outside of any form"
  | some form =>
      if form.action = action.identity then
        element "button"
          (action.buttonAttributes form.id setting.scope.current.text form.islands form.items
            attributes)
          children
      else
        misuse .submit "the submit button must be a child of its own action's form"

/-- A button with a form of its own, in which it stands behind the hidden inputs. -/
def quickButton (action : Action) (refresh : Refresh) (formAttributes : Attributes)
    (hidden : Render String) (attributes : Attributes) (children : Render String) :
    Render String := do
  requireNoForm .quickButton
  let id ← nextFormId
  let setting ← setting
  let button :=
    element "button"
      (action.buttonAttributes id setting.scope.current.text (refresh.islandIds action)
        refresh.items attributes)
      children
  element "form" (formAttributes.set "id" (.string id)) do
    let inputs ← hidden
    let button ← button
    return inputs ++ button

end Sitewright.Render
