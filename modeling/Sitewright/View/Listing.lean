import Sitewright.View.Basic

/-!
Contract: the structural listing of a view, for diagnostics.

The listing shows markup down to its attributes; of constructs and components it
shows the name only, because their content is not known before they are rendered.
-/

namespace Sitewright

open Markup Template

namespace Listing

/-- A character inside a listed string. Quotes, backslashes and controls are
escaped; characters beyond ASCII are listed as they are. -/
def charText (character : Char) : List Char :=
  if character = '"' then ['\\', '"']
  else if character = '\\' then ['\\', '\\']
  else if character = '\n' then ['\\', 'n']
  else if character = '\r' then ['\\', 'r']
  else if character = '\t' then ['\\', 't']
  else if character.toNat = 0 then ['\\', '0']
  else if character.toNat < 0x20 || character.toNat = 0x7f then
    ['\\', 'u', '\x7b'] ++ Nat.toDigits 16 character.toNat ++ ['\x7d']
  else [character]

def quoted (text : String) : String :=
  String.ofList ('"' :: text.toList.flatMap charText ++ ['"'])

/-- One value behind the name of its form. -/
def tagged (form value : String) : String :=
  form ++ "(" ++ value ++ ")"

/-- Named fields behind the name of their form. -/
def record (form : String) (fields : List (String × String)) : String :=
  form ++ " \x7b " ++
    Text.joinWith ", " (fields.map fun field => field.1 ++ ": " ++ field.2) ++ " \x7d"

def several (values : List String) : String :=
  "[" ++ Text.joinWith ", " values ++ "]"

def valueText : Value → String
  | .null => "Null"
  | .bool value => tagged "Bool" (Literal.boolText value)
  | .string value => tagged "Str" (quoted value)
  | .whole value => tagged "Int" (toString value)
  | .float value => tagged "Float" (value.text .listing)
  | .ref source => tagged "Path" (record "DataPath" [("name", quoted source.name)])

def attributeText (entry : Attribute) : String :=
  record "Attribute" [("name", quoted entry.name), ("value", valueText entry.value)]

end Listing

namespace View

open Listing

mutual

def listing : View → String
  | .blank => "Empty"
  | .text content => tagged "Text" (quoted content)
  | .raw content => tagged "Raw" (quoted content)
  | .group children => tagged "Fragment" (several (listings children))
  | .element tag attributes children =>
      record "ElementNode"
        [("tag", quoted tag),
         ("attributes", several (attributes.map attributeText)),
         ("children", several (listings children))]
  | view => tagged "Component" (quoted (view.label?.getD ""))

def listings : List View → List String
  | [] => []
  | first :: rest => first.listing :: listings rest

end

end View

end Sitewright
