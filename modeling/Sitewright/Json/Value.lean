import Sitewright.Number.Notation

/-!
Contract: JSON values and their compact text.

Owns:
- the value type, whole numbers kept apart from floating-point ones;
- `quoted`, the text of a string between quotes;
- `Json.text`, which writes no blanks and keeps the order of members;
- member lists sorted by key, where a later value replaces an earlier one.

Does not own: reading, and the limits that a reader puts on numbers.
-/

namespace Sitewright

inductive JsonNumber where
  | whole (value : Int)
  | float (value : Number.Binary64)
deriving DecidableEq, Repr

inductive Json where
  | null
  | bool (value : Bool)
  | number (value : JsonNumber)
  | string (value : String)
  | array (items : List Json)
  | object (members : List (String × Json))

namespace Json

/-! ## Text -/

def hexDigit (value : Nat) : Char :=
  Nat.digitChar (value % 16)

/-- A character inside quotes. Quotes, backslashes and the controls below the
space are escaped, five of them by a letter; every other character is itself. -/
def quotedChar (character : Char) : List Char :=
  if character = '"' then ['\\', '"']
  else if character = '\\' then ['\\', '\\']
  else if character = '\x08' then ['\\', 'b']
  else if character = '\x0c' then ['\\', 'f']
  else if character = '\n' then ['\\', 'n']
  else if character = '\r' then ['\\', 'r']
  else if character = '\t' then ['\\', 't']
  else if character.toNat < 0x20 then
    ['\\', 'u', '0', '0', hexDigit (character.toNat / 16), hexDigit character.toNat]
  else [character]

def quoted (text : String) : String :=
  String.ofList ('"' :: text.toList.flatMap quotedChar ++ ['"'])

/-- A number; whole ones carry neither point nor exponent, floating ones always
carry one of them. -/
def numberText : JsonNumber → String
  | .whole value => toString value
  | .float value => value.text .json

mutual

def text : Json → String
  | .null => "null"
  | .bool value => if value then "true" else "false"
  | .number value => numberText value
  | .string value => quoted value
  | .array items => "[" ++ itemsText items ++ "]"
  | .object members => "\x7b" ++ membersText members ++ "\x7d"

def itemsText : List Json → String
  | [] => ""
  | [last] => last.text
  | head :: next :: rest => head.text ++ "," ++ itemsText (next :: rest)

/-- Members separated by commas, each key before a colon. -/
def membersText : List (String × Json) → String
  | [] => ""
  | [(key, value)] => quoted key ++ ":" ++ value.text
  | (key, value) :: next :: rest =>
      quoted key ++ ":" ++ value.text ++ "," ++ membersText (next :: rest)

end

/-! ## Sorted members -/

/-- Members in increasing order of their keys, with `value` under `key` and the
old value of that key gone. -/
def insertMember (key : String) (value : Json) : List (String × Json) → List (String × Json)
  | [] => [(key, value)]
  | (other, old) :: rest =>
      if key < other then (key, value) :: (other, old) :: rest
      else if key = other then (key, value) :: rest
      else (other, old) :: insertMember key value rest

/-- The members sorted by key, the last of several under one key kept. -/
def sortMembers (members : List (String × Json)) : List (String × Json) :=
  members.foldl (fun sorted entry => insertMember entry.1 entry.2 sorted) []

def sortedObject (members : List (String × Json)) : Json :=
  .object (sortMembers members)

/-! ## Access -/

def get? (key : String) : Json → Option Json
  | .object members => (members.find? fun entry => entry.1 = key).map Prod.snd
  | _ => none

def items? : Json → Option (List Json)
  | .array items => some items
  | _ => none

def string? : Json → Option String
  | .string value => some value
  | _ => none

def whole? : Json → Option Int
  | .number (.whole value) => some value
  | _ => none

def bool? : Json → Option Bool
  | .bool value => some value
  | _ => none

/-- The text of a list of strings as a JSON array. -/
def stringsText (values : List String) : String :=
  (Json.array (values.map .string)).text

example : (Json.object [("a", .array [.null, .bool true]), ("b", .string "\"\x01")]).text =
    "\x7b\"a\":[null,true],\"b\":\"\\\"\\u0001\"\x7d" := by cbv

end Json

end Sitewright
