import Sitewright.View.Basic

/-!
Contract: forms of actions and the hidden inputs that carry their data.

Data without a value has no input, and a truth value is a checkbox. Of a
reference the kind of value is only known on request, so its input is chosen
there: a checkbox for truth values, a text input for everything else.
-/

namespace Sitewright

open Markup Template

def hiddenCheckbox (name : String) (checked : Bool) : View :=
  .element "input"
    [⟨"style", .string "display: none;"⟩,
     ⟨"type", .string "checkbox"⟩,
     ⟨"name", .string name⟩,
     ⟨"checked", if checked then .string "true" else .null⟩] []

def hiddenText (name : String) (value : Value) : View :=
  .element "input"
    [⟨"type", .string "hidden"⟩, ⟨"name", .string name⟩, ⟨"value", value⟩] []

/-- The input of referenced data, chosen by the type of the data. -/
def hiddenChoice (name : String) (source : DataRef) : View :=
  let checkbox :=
    View.conditional (.compare .equal (.ref source) (.literal (.bool true))) false
      [hiddenCheckbox name true] (some (hiddenCheckbox name false))
  .conditional (.hasType (.ref source) "bool") false [checkbox]
    (some (hiddenText name (.ref source)))

/-- The input that carries one value. -/
def hiddenInput (name : String) : Value → View
  | .null => .blank
  | .bool checked => hiddenCheckbox name checked
  | .ref source => hiddenChoice name source
  | value => hiddenText name value

def hiddenInputs (data : List Attribute) : List View :=
  data.map fun entry => hiddenInput entry.name entry.value

namespace Action

/-- A form of the action, its data in front of the children. -/
def form (action : Action) (refresh : Refresh) (data : List Attribute)
    (attributes : Attributes) (children : List View) : View :=
  .form action refresh attributes (hiddenInputs data ++ children)

/-- A single button that posts the action, with a form around it. -/
def quickButton (action : Action) (refresh : Refresh) (data : List Attribute)
    (formAttributes attributes : Attributes) (children : List View) : View :=
  .quickButton action refresh formAttributes (hiddenInputs data) attributes children

end Action

end Sitewright
