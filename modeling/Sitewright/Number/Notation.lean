import Sitewright.Number.Shortest

/-!
Contract: how a floating-point number is written.

All notations show the fewest digits that read back (`shortest`); a
`FloatNotation` says where positional writing ends, whether a whole number keeps
a fraction, whether a positive exponent has a sign, and which of two equally near
texts is shown.
-/

namespace Sitewright.Number

/-- The choices of one written form. -/
structure FloatNotation where
  /-- The least and greatest position of the point that are still written
  positionally; without bounds nothing is ever written with an exponent. -/
  positional : Option (Int × Int)
  /-- Whether a positional whole number ends in `.0`. -/
  fraction : Bool
  /-- Whether an exponent that is not negative has a plus sign. -/
  plus : Bool
  /-- Which of two equally near texts is written. -/
  tie : Tie

namespace FloatNotation

/-- Numbers inside templates and attributes: positional, whole numbers bare. -/
def plain : FloatNotation := ⟨none, false, false, .up⟩

/-- Numbers in the structural listing of a view: positional from `0.0001` up to
but not including `10 ^ 16`, whole numbers with a fraction. -/
def listing : FloatNotation := ⟨some (-3, 16), true, false, .up⟩

/-- Numbers in JSON: positional from `0.00001` up to but not including
`10 ^ 16`, whole numbers with a fraction, exponents with a sign. -/
def json : FloatNotation := ⟨some (-4, 16), true, true, .even⟩

end FloatNotation

def zeros (count : Int) : List Char :=
  List.replicate count.toNat '0'

/-- The decimal without an exponent. -/
def Decimal.positional (decimal : Decimal) (fraction : Bool) : List Char :=
  let length : Int := decimal.digits.length
  if decimal.point ≤ 0 then
    ['0', '.'] ++ zeros (-decimal.point) ++ decimal.digits
  else if decimal.point < length then
    decimal.digits.take decimal.point.toNat ++ ['.'] ++ decimal.digits.drop decimal.point.toNat
  else
    decimal.digits ++ zeros (decimal.point - length) ++ if fraction then ['.', '0'] else []

/-- The decimal with one digit before the point, and an exponent. -/
def Decimal.scientific (decimal : Decimal) (plus : Bool) : List Char :=
  let mantissa := match decimal.digits with
    | [] => []
    | [single] => [single]
    | head :: tail => head :: '.' :: tail
  let exponent := decimal.point - 1
  mantissa ++ ['e'] ++ (if plus && 0 ≤ exponent then ['+'] else []) ++ (toString exponent).toList

def Decimal.written (decimal : Decimal) (form : FloatNotation) : List Char :=
  match form.positional with
  | none => decimal.positional form.fraction
  | some (least, greatest) =>
      if least ≤ decimal.point && decimal.point ≤ greatest then
        decimal.positional form.fraction
      else
        decimal.scientific form.plus

def Binary64.text (form : FloatNotation) : Binary64 → String
  | .nan => "NaN"
  | .infinite negative => if negative then "-inf" else "inf"
  | .finite negative significand exponent =>
      let sign := if negative then ['-'] else []
      let magnitude :=
        if significand = 0 then
          if form.fraction then ['0', '.', '0'] else ['0']
        else
          (shortest form.tie significand exponent).written form
      String.ofList (sign ++ magnitude)

example : (Binary64.ofNat (tenTo 16)).text .json = "1e+16" := by decide +kernel
example : (Binary64.ofRatio true 3 (tenTo 9)).text .json = "-3e-9" := by decide +kernel
example : (Binary64.ofNat (tenTo 16)).text .listing = "1e16" := by decide +kernel

end Sitewright.Number
