import Sitewright.Json.Value
import Sitewright.Json.Grammar

/-!
Contract: JSON values and records out of JSON syntax.

Owns:
- the value of a number: whole within sixty-four bits, floating otherwise;
- values, with a limit on nesting and members sorted by key;
- records: named fields from an object, or fields by position from an array.

A whole number that is too large, and every number with a fraction or an
exponent, is read as a significand of at most sixty-four bits and a power of
ten; further digits only move the power. The significand is rounded to a
floating-point number first and then multiplied or divided by the rounded power,
so the result can differ from the nearest number in the last place.
-/

namespace Sitewright

open Number

namespace JsonSyntax

/-! ## Numbers -/

/-- One more than the greatest whole number read exactly. -/
def wholeLimit : Nat := twoTo 64

def digitValue (digit : Char) : Nat :=
  digit.toNat - '0'.toNat

/-- Digits appended to `significand` as long as it stays below the limit, and
the digits that are left. -/
def appendDigits (significand : Nat) : List Char → Nat × List Char
  | [] => (significand, [])
  | digit :: rest =>
      let next := significand * 10 + digitValue digit
      if next < wholeLimit then appendDigits next rest
      else (significand, digit :: rest)

/-- The greatest power of ten that one step multiplies or divides by. -/
def stepPower : Nat := 308

/-- A floating-point number over a power of ten, in steps that reach zero after
three at the latest. -/
def divideByPower : (steps : Nat) → Binary64 → Nat → Binary64
  | 0, value, _ => value
  | steps + 1, value, power =>
      if power ≤ stepPower then value.divide (.ofTenTo power)
      else if value.isZero then value
      else divideByPower steps (value.divide (.ofTenTo stepPower)) (power - stepPower)

/-- `significand * 10 ^ power`, refused when it is infinite. -/
def scaled? (significand : Nat) (power : Int) : Option Binary64 :=
  let value := Binary64.ofNat significand
  if power < 0 then
    some (divideByPower 4 value (-power).toNat)
  else if power ≤ stepPower then
    let product := value.multiply (.ofTenTo power.toNat)
    if product.isFinite then some product else none
  else if value.isZero then some value
  else none

/-- The greatest exponent that is counted; beyond it a number is zero or refused. -/
def exponentLimit : Nat := twoTo 31

/-- The value of an exponent's digits, `none` beyond the limit. -/
def exponentValue? (digits : List Char) : Option Nat :=
  let value := digits.foldl (fun value digit => value * 10 + digitValue digit) 0
  if value < exponentLimit then some value else none

/-- The floating-point number of a significand, the power its digits imply, and
the written exponent. -/
def float? (significand : Nat) (power : Int) : Option (Bool × List Char) → Option Binary64
  | none => scaled? significand power
  | some (down, digits) =>
      match exponentValue? digits with
      | some exponent => scaled? significand (if down then power - exponent else power + exponent)
      | none =>
          if significand = 0 || down then some (.finite false 0 Binary64.leastExponent)
          else none

/-- The number written. A zero with a minus sign is floating, because whole
numbers have one zero. -/
def number? (parts : NumberSyntax) : Option JsonNumber :=
  let whole := appendDigits 0 parts.whole
  let signed (value : Binary64) : JsonNumber :=
    .float (if parts.negative then value.negate else value)
  if parts.fraction.isEmpty && parts.exponent.isNone && whole.2.isEmpty then
    if !parts.negative then some (.whole whole.1)
    else if 0 < whole.1 && whole.1 ≤ twoTo 63 then some (.whole (-(whole.1 : Int)))
    else some (signed (.ofNat whole.1))
  else
    let all := appendDigits whole.1 parts.fraction
    let power : Int := whole.2.length - (parts.fraction.length - all.2.length : Nat)
    (float? all.1 power parts.exponent).map signed

/-! ## Values -/

def nestingLimit : Nat := 127

mutual

/-- The value of a tree in which at most `depth` containers are open at once. -/
def toJson? (depth : Nat) : JsonSyntax → Option Json
  | .null => some .null
  | .bool value => some (.bool value)
  | .number parts => (number? parts).map .number
  | .string value => value.map .string
  | .array items =>
      if depth = 0 then none else (itemsToJson? (depth - 1) items).map .array
  | .object members =>
      if depth = 0 then none
      else (membersToJson? (depth - 1) members).map Json.sortedObject

def itemsToJson? (depth : Nat) : List JsonSyntax → Option (List Json)
  | [] => some []
  | head :: tail => do
      let head ← toJson? depth head
      let tail ← itemsToJson? depth tail
      return head :: tail

def membersToJson? (depth : Nat) :
    List (Option String × JsonSyntax) → Option (List (String × Json))
  | [] => some []
  | (key, value) :: tail => do
      let key ← key
      let value ← toJson? depth value
      let tail ← membersToJson? depth tail
      return (key, value) :: tail

end

/-! ## Records -/

/-- A string without unpaired surrogates. -/
def text? : JsonSyntax → Option String
  | .string value => value
  | _ => none

def flag? : JsonSyntax → Option Bool
  | .bool value => some value
  | _ => none

/-- A whole number that is not negative and has at most sixty-four bits. -/
def count? : JsonSyntax → Option Nat
  | .number parts =>
      match number? parts with
      | some (.whole value) => if 0 ≤ value then some value.toNat else none
      | _ => none
  | _ => none

/-- The name of one of several alternatives: a string, or an object that maps
the name to null. -/
def label? : JsonSyntax → Option String
  | .string value => value
  | .object [(key, .null)] => key
  | _ => none

def elements? : JsonSyntax → Option (List JsonSyntax)
  | .array items => some items
  | _ => none

/-- The only value under `name`; two values are refused. -/
def member? (name : String) (members : List (Option String × JsonSyntax)) :
    Option (Option JsonSyntax) :=
  match members.filter (fun entry => entry.1 = some name) with
  | [] => some none
  | [(_, value)] => some (some value)
  | _ => none

/-- The fields of an object in the order of `names`, absent ones `none`. A field
given twice and an unreadable key are refused, other members are passed over. -/
def namedFields? (names : List String) (members : List (Option String × JsonSyntax)) :
    Option (List (Option JsonSyntax)) :=
  if members.any (fun entry => entry.1.isNone) then none
  else names.mapM fun name => member? name members

/-- The fields of a record in the order of `names`, from an object or, in that
order and without surplus, from an array. -/
def fields? (names : List String) : JsonSyntax → Option (List (Option JsonSyntax))
  | .object members => namedFields? names members
  | .array items =>
      if items.length ≤ names.length then
        some ((List.range names.length).map fun position => items[position]?)
      else none
  | _ => none

end JsonSyntax

/-- The value of a JSON text, members sorted by key. -/
def Json.ofText? (text : String) : Option Json :=
  (JsonSyntax.ofText? text).bind (JsonSyntax.toJson? JsonSyntax.nestingLimit)

example : (Json.ofText? "[1.5, -0, 1e2, \"\\u00e9\", \x7b\"b\":1,\"a\":2,\"b\":3\x7d]").map Json.text =
    some "[1.5,-0.0,100.0,\"é\",\x7b\"a\":2,\"b\":3\x7d]" := by decide +kernel

end Sitewright
