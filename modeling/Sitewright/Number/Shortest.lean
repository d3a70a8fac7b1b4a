import Sitewright.Number.Binary64

/-!
Contract: the fewest decimal digits that read back as a given number.

The reals that round to a number form an interval around it, ends included
exactly when the significand is even. For one digit, two digits and so on the
two neighbours of the number on that decimal grid are tried; the first grid
with a neighbour in the interval decides how many digits there are. Of two such
neighbours the nearer is taken; where an exact tie goes is the caller's choice.
-/

namespace Sitewright.Number

/-- A positive decimal `0.d₁d₂… * 10 ^ point`, its digits written most
significant first. -/
structure Decimal where
  digits : List Char
  point : Int
deriving DecidableEq, Repr

/-- Which of two equally near neighbours is taken. -/
inductive Tie where
  /-- The greater one. -/
  | up
  /-- The one whose last digit is even. -/
  | even
deriving DecidableEq, Repr

/-- Whether a tie leaves the lower neighbour, which is `floor` grid steps. -/
def Tie.leavesFloor (tie : Tie) (floor : Nat) : Bool :=
  match tie with
  | .up => true
  | .even => floor % 2 = 1

/-- A positive number and the ends of the interval of reals that round to it,
all over one denominator. -/
structure Neighbourhood where
  lower : Nat
  value : Nat
  upper : Nat
  denominator : Nat
  closed : Bool

namespace Neighbourhood

/-- The neighbourhood of `significand * 2 ^ exponent`. Below a power of two the
spacing halves, unless the number has the least exponent. -/
def ofFinite (significand : Nat) (exponent : Int) : Neighbourhood :=
  let scale := twoTo exponent.toNat
  let narrow := significand = Binary64.hiddenBit ∧ exponent > Binary64.leastExponent
  { lower := (4 * significand - if narrow then 1 else 2) * scale
    value := 4 * significand * scale
    upper := (4 * significand + 2) * scale
    denominator := 4 * twoTo (-exponent).toNat
    closed := significand % 2 = 0 }

/-- Whether the real `numerator / denominator` rounds to the number. -/
def contains (around : Neighbourhood) (numerator denominator : Nat) : Bool :=
  let scaled := numerator * around.denominator
  if around.closed then
    around.lower * denominator ≤ scaled && scaled ≤ around.upper * denominator
  else
    around.lower * denominator < scaled && scaled < around.upper * denominator

/-- The least `point` with `value < 10 ^ point`, counted from the value's
length in base two so that few candidates are left. -/
def pointOf (around : Neighbourhood) : Int :=
  let magnitude : Int := (around.value.log2 : Int) - around.denominator.log2
  let guess := magnitude * 30103 / 100000 - 1
  let below (point : Int) : Bool :=
    around.value * tenTo (-point).toNat < around.denominator * tenTo point.toNat
  if below guess then guess
  else if below (guess + 1) then guess + 1
  else if below (guess + 2) then guess + 2
  else guess + 3

/-- The better neighbour of the value on the grid of multiples of `10 ^ place`,
if one of the two reads back. -/
def onGrid? (around : Neighbourhood) (tie : Tie) (place : Int) : Option Nat :=
  let up := tenTo place.toNat
  let down := tenTo (-place).toNat
  -- The value is `numerator / denominator` grid steps.
  let numerator := around.value * down
  let denominator := around.denominator * up
  let floor := numerator / denominator
  let fits (steps : Nat) : Bool := around.contains (steps * up) down
  let twice := 2 * (numerator % denominator)
  let upward := denominator < twice || (twice = denominator && tie.leavesFloor floor)
  if fits floor && fits (floor + 1) then some (if upward then floor + 1 else floor)
  else if fits (floor + 1) then some (floor + 1)
  else if fits floor then some floor
  else none

/-- The first grid with a hit, from `count` digits on and `fuel` grids at most. -/
def search (around : Neighbourhood) (tie : Tie) (point : Int) :
    (fuel count : Nat) → Option (Nat × Int)
  | 0, _ => none
  | fuel + 1, count =>
      match around.onGrid? tie (point - count) with
      | some steps => some (steps, point - count)
      | none => search around tie point fuel (count + 1)

end Neighbourhood

/-- Decimal digits without the zeros at the end. -/
def significantDigits (value : Nat) : List Char :=
  ((Nat.toDigits 10 value).reverse.dropWhile (fun digit => digit = '0')).reverse

/-- The fewest digits that read back as `significand * 2 ^ exponent`, which is
not zero. Seventeen digits always suffice. -/
def shortest (tie : Tie) (significand : Nat) (exponent : Int) : Decimal :=
  let around := Neighbourhood.ofFinite significand exponent
  match around.search tie around.pointOf 17 1 with
  | some (steps, place) =>
      { digits := significantDigits steps
        point := (Nat.toDigits 10 steps).length + place }
  | none => { digits := [], point := 0 }

example : shortest .up 1 (-1074) = ⟨['5'], -323⟩ := by decide +kernel
example : shortest .up (twoTo 52) 1 = ⟨"9007199254740992".toList, 16⟩ := by decide +kernel
example : shortest .even 0x1999999999999a (-56) = ⟨['1'], 0⟩ := by decide +kernel
example : shortest .up (twoTo 52 + 1) (-2) = ⟨"11258999068426243".toList, 16⟩ := by decide +kernel
example : shortest .even (twoTo 52 + 1) (-2) = ⟨"11258999068426242".toList, 16⟩ := by decide +kernel

end Sitewright.Number
