import Sitewright.Number.Power

/-!
Contract: binary floating-point numbers of sixty-four bits as exact values.

A finite number is `significand * 2 ^ exponent` with a sign. Not-a-number keeps
neither sign nor payload, because no text written here shows them.

Owns:
- reading the three fields of a bit pattern;
- the nearest number to a positive ratio, ties to the even significand;
- products and quotients of two finite numbers, each rounded once.

Does not own: decimal texts.
-/

namespace Sitewright.Number

inductive Binary64 where
  | nan
  | infinite (negative : Bool)
  | finite (negative : Bool) (significand : Nat) (exponent : Int)
deriving DecidableEq, Repr

namespace Binary64

/-- The exponent of the smallest spacing, and of every subnormal number. -/
def leastExponent : Int := -1074

/-- The exponent of the widest spacing. -/
def greatestExponent : Int := 971

/-- The significand of a normal number is at least this and less than its double. -/
def hiddenBit : Nat := twoTo 52

/-- The number with the given sixty-four bits: a sign, eleven bits of biased
exponent and fifty-two bits of fraction. -/
def ofBits (bits : UInt64) : Binary64 :=
  let pattern := bits.toNat
  let negative : Bool := pattern / twoTo 63 % 2 = 1
  let biased : Nat := pattern / twoTo 52 % twoTo 11
  let fraction : Nat := pattern % twoTo 52
  if biased = twoTo 11 - 1 then
    if fraction = 0 then .infinite negative else .nan
  else if biased = 0 then
    .finite negative fraction leastExponent
  else
    .finite negative (hiddenBit + fraction) ((biased : Int) - 1 + leastExponent)

def isFinite : Binary64 → Bool
  | .finite .. => true
  | _ => false

def isZero : Binary64 → Bool
  | .finite _ significand _ => significand = 0
  | _ => false

/-- The same magnitude with the sign turned over. -/
def negate : Binary64 → Binary64
  | .nan => .nan
  | .infinite negative => .infinite (!negative)
  | .finite negative significand exponent => .finite (!negative) significand exponent

/-- `numerator / denominator` rounded to a natural number, a half to the even one. -/
def roundEven (numerator denominator : Nat) : Nat :=
  let quotient := numerator / denominator
  let twice := 2 * (numerator % denominator)
  if twice < denominator then quotient
  else if denominator < twice then quotient + 1
  else quotient + quotient % 2

/-- `numerator / denominator / 2 ^ exponent` as a ratio of natural numbers. -/
def scaledRatio (numerator denominator : Nat) (exponent : Int) : Nat × Nat :=
  (numerator * twoTo (-exponent).toNat, denominator * twoTo exponent.toNat)

/-- The number nearest to the ratio, a tie going to the even significand. A
ratio beyond the greatest number becomes infinite. -/
def ofRatio (negative : Bool) (numerator denominator : Nat) : Binary64 :=
  if numerator = 0 then
    .finite negative 0 leastExponent
  else
    -- At this exponent the quotient has fifty-three or fifty-four bits.
    let guess : Int := (numerator.log2 : Int) - denominator.log2 - 53
    let trial := scaledRatio numerator denominator guess
    let normal := if trial.1 / trial.2 < 2 * hiddenBit then guess else guess + 1
    let exponent := max normal leastExponent
    let ratio := scaledRatio numerator denominator exponent
    let significand := roundEven ratio.1 ratio.2
    let carried := significand = 2 * hiddenBit
    let final := if carried then exponent + 1 else exponent
    if final > greatestExponent then .infinite negative
    else .finite negative (if carried then hiddenBit else significand) final

def ofNat (value : Nat) : Binary64 :=
  ofRatio false value 1

def ofTenTo (power : Nat) : Binary64 :=
  ofNat (tenTo power)

/-- The product, rounded once. Only finite operands are multiplied here; an
infinite or not-a-number operand gives not-a-number. -/
def multiply : Binary64 → Binary64 → Binary64
  | .finite sign₁ significand₁ exponent₁, .finite sign₂ significand₂ exponent₂ =>
      let exponent := exponent₁ + exponent₂
      ofRatio (sign₁ != sign₂) (significand₁ * significand₂ * twoTo exponent.toNat)
        (twoTo (-exponent).toNat)
  | _, _ => .nan

/-- The quotient, rounded once. Only finite operands are divided here, and the
divisor is not zero; anything else gives not-a-number. -/
def divide : Binary64 → Binary64 → Binary64
  | .finite sign₁ significand₁ exponent₁, .finite sign₂ significand₂ exponent₂ =>
      if significand₂ = 0 then .nan
      else
        let exponent := exponent₁ - exponent₂
        ofRatio (sign₁ != sign₂) (significand₁ * twoTo exponent.toNat)
          (significand₂ * twoTo (-exponent).toNat)
  | _, _ => .nan

example : ofBits 0x3ff8000000000000 = .finite false (3 * twoTo 51) (-52) := by decide +kernel
example : ofBits 0x7ff0000000000000 = .infinite false := by decide
example : ofNat (twoTo 53 + 1) = .finite false (twoTo 52) 1 := by decide +kernel
example : ofRatio false 1 10 = ofBits 0x3fb999999999999a := by decide +kernel

end Binary64

end Sitewright.Number
