import Sitewright.Markup.Escape
import Sitewright.Number.Notation
import Sitewright.Template.DataRef

/-!
Contract: attributes of elements.

Owns:
- attribute values and their text, where some values leave the attribute out
  and an empty text makes it a bare flag;
- attribute lists, in which setting a name again replaces its value in place.
-/

namespace Sitewright.Markup

open Number Template

inductive Value where
  | null
  | bool (value : Bool)
  | string (value : String)
  | whole (value : Int)
  | float (value : Binary64)
  | ref (source : DataRef)
deriving DecidableEq, Repr

namespace Value

/-- The text before escaping; `none` leaves the attribute out, and an empty
text writes its name alone. -/
def text? : Value → Option String
  | .null => none
  | .bool value => if value then some "" else none
  | .string value => if value.isEmpty then none else some value
  | .whole value => some (toString value)
  | .float value => some (value.text .plain)
  | .ref source => some source.interpolation

/-- One more than the greatest whole number that a value holds exactly. -/
def wholeLimit : Nat := twoTo 63

/-- A count; beyond the limit it is rounded to a floating-point number. -/
def ofCount (count : Nat) : Value :=
  if count < wholeLimit then .whole count else .float (.ofNat count)

def ofString? : Option String → Value
  | some value => .string value
  | none => .null

end Value

structure Attribute where
  name : String
  value : Value
deriving DecidableEq, Repr

abbrev Attributes := List Attribute

namespace Attributes

/-- `value` under `name`: in the place of an earlier value, otherwise at the end. -/
def set (name : String) (value : Value) : Attributes → Attributes
  | [] => [⟨name, value⟩]
  | head :: tail =>
      if head.name = name then ⟨name, value⟩ :: tail else head :: set name value tail

def setAll (settings : List Attribute) (attributes : Attributes) : Attributes :=
  settings.foldl (fun attributes setting => set setting.name setting.value attributes) attributes

def ofSettings (settings : List Attribute) : Attributes :=
  setAll settings []

def get? (name : String) (attributes : Attributes) : Option Value :=
  (attributes.find? fun entry => entry.name = name).map Attribute.value

end Attributes

/-- An attribute as written inside a tag, `none` when it is left out. -/
def Attribute.text? (entry : Attribute) : Option String :=
  entry.value.text?.map fun value =>
    if value.isEmpty then entry.name
    else entry.name ++ "=\"" ++ escapeAttribute value ++ "\""

/-- The attributes that are not left out, with a space between neighbours. -/
def Attributes.text (attributes : Attributes) : String :=
  Text.joinWith " " (attributes.filterMap Attribute.text?)

namespace Attributes

@[simp] theorem get?_set_same (name : String) (value : Value) (attributes : Attributes) :
    get? name (set name value attributes) = some value := by
  induction attributes with
  | nil => simp [set, get?]
  | cons head tail inductionHypothesis =>
      simp only [set]
      split
      · simp [get?]
      · next different =>
        simpa [get?, List.find?_cons, different] using inductionHypothesis

theorem get?_set_other {name other : String} (different : other ≠ name) (value : Value)
    (attributes : Attributes) :
    get? other (set name value attributes) = get? other attributes := by
  induction attributes with
  | nil => simp [set, get?, Ne.symm different]
  | cons head tail inductionHypothesis =>
      simp only [set]
      split
      · next same =>
        subst same
        simp [get?, Ne.symm different]
      · simp only [get?, List.find?_cons] at inductionHypothesis ⊢
        split
        · rfl
        · exact inductionHypothesis

end Attributes

end Sitewright.Markup
