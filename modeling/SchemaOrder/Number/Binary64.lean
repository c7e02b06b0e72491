import SchemaOrder.Text.Basic

/-!
# Binary floating-point numbers

This module holds the 64-bit binary floating-point numbers as exact values: a sign,
a significand below `2 ^ 53` and a power of two. It rounds decimals to them, the
nearest value first and an even significand in a tie, and compares them with each
other and with integers. How they are written is in `SchemaOrder.Number.Shortest`.
-/

namespace SchemaOrder

/-- A 64-bit binary floating-point number. -/
inductive Binary64 where
  /-- The number `significand * 2 ^ exponent`, negated where `negative` holds. -/
  | finite (negative : Bool) (significand : Nat) (exponent : Int)
  /-- One of the two infinities. -/
  | infinite (negative : Bool)
  /-- The value that is no number. -/
  | nan
deriving DecidableEq, Repr, Inhabited

namespace Binary64

/-- The least exponent a number may have. -/
def leastExponent : Int := -1074

/-- The greatest exponent a number may have. -/
def greatestExponent : Int := 971

/-- The bound that every significand stays below. -/
def significandBound : Nat := Nat.pow 2 53

/-- A quotient rounded to a natural number: to the nearest one, and to the even one
of two that are equally near. -/
def roundQuotient (numerator denominator : Nat) : Nat :=
  let quotient := numerator / denominator
  let remainder := numerator % denominator
  if 2 * remainder < denominator then quotient
  else if denominator < 2 * remainder then quotient + 1
  else if quotient % 2 = 0 then quotient
  else quotient + 1

/-- The quotient `numerator / (denominator * 2 ^ exponent)` as a fraction. -/
def scale (numerator denominator : Nat) (exponent : Int) : Nat × Nat :=
  if exponent < 0 then (numerator * Nat.pow 2 exponent.natAbs, denominator)
  else (numerator, denominator * Nat.pow 2 exponent.natAbs)

/-- The number nearest to a fraction. Beyond the greatest number it is infinite. -/
def ofFraction (negative : Bool) (numerator denominator : Nat) : Binary64 :=
  if numerator = 0 || denominator = 0 then .finite negative 0 leastExponent
  else
    let guess : Int := (numerator.log2 : Int) - (denominator.log2 : Int) - 52
    let below := scale numerator denominator guess
    let exponent := if below.1 / below.2 < Nat.pow 2 52 then guess - 1 else guess
    let exponent := max exponent leastExponent
    let scaled := scale numerator denominator exponent
    let significand := roundQuotient scaled.1 scaled.2
    let (significand, exponent) :=
      if significand = significandBound then (Nat.pow 2 52, exponent + 1)
      else (significand, exponent)
    if greatestExponent < exponent then .infinite negative
    else .finite negative significand exponent

/-- The number of decimal digits of a natural number; zero has none. -/
def decimalWidth (number : Nat) : Nat :=
  if number = 0 then 0 else (Nat.toDigits 10 number).length

/-- The number nearest to `digits * 10 ^ power`. Powers far outside the range are
settled without being computed. -/
def ofDecimal (negative : Bool) (digits : Nat) (power : Int) : Binary64 :=
  let magnitude := (decimalWidth digits : Int) + power
  if digits = 0 then .finite negative 0 leastExponent
  else if 400 < magnitude then .infinite negative
  else if magnitude < -400 then .finite negative 0 leastExponent
  else if power < 0 then ofFraction negative digits (Nat.pow 10 power.natAbs)
  else ofFraction negative (digits * Nat.pow 10 power.natAbs) 1

/-- The number nearest to an integer. -/
def ofInt (number : Int) : Binary64 :=
  ofFraction (number < 0) number.natAbs 1

/-- An integer as it is, without rounding. Its significand has no bound, so that it serves
for comparison only. -/
def exactly (number : Int) : Binary64 :=
  .finite (number < 0) number.natAbs 0

/-- Whether the number is neither infinite nor undefined. -/
def isFinite : Binary64 → Bool
  | .finite .. => true
  | _ => false

/-- The integer a number is, if it is one. -/
def toInt? : Binary64 → Option Int
  | .finite negative significand exponent =>
    let magnitude :=
      if 0 ≤ exponent then some (significand * Nat.pow 2 exponent.natAbs)
      else if significand % Nat.pow 2 exponent.natAbs = 0 then
        some (significand / Nat.pow 2 exponent.natAbs)
      else none
    magnitude.map fun (size : Nat) => if negative then -(size : Int) else (size : Int)
  | _ => none

/-- Whether two numbers have the same value. The two zeros have; the undefined value
is taken to be the same as itself. -/
def sameValue (left right : Binary64) : Bool :=
  match left, right with
  | .finite leftNegative leftSignificand leftExponent,
    .finite rightNegative rightSignificand rightExponent =>
    let least := min leftExponent rightExponent
    let leftSize := leftSignificand * Nat.pow 2 (leftExponent - least).toNat
    let rightSize := rightSignificand * Nat.pow 2 (rightExponent - least).toNat
    leftSize = rightSize && (leftNegative = rightNegative || leftSize = 0)
  | .infinite leftNegative, .infinite rightNegative => leftNegative = rightNegative
  | .nan, .nan => true
  | _, _ => false

/-- Whether a number is below another one or has the same value. The undefined value is
not compared: it counts as below nothing and above nothing. -/
def isAtMost (left right : Binary64) : Bool :=
  match left, right with
  | .finite leftNegative leftSignificand leftExponent,
    .finite rightNegative rightSignificand rightExponent =>
    let least := min leftExponent rightExponent
    let leftSize : Int := leftSignificand * Nat.pow 2 (leftExponent - least).toNat
    let rightSize : Int := rightSignificand * Nat.pow 2 (rightExponent - least).toNat
    (if leftNegative then -leftSize else leftSize) ≤
      (if rightNegative then -rightSize else rightSize)
  | .infinite negative, .finite .. => negative
  | .finite .., .infinite negative => !negative
  | .infinite leftNegative, .infinite rightNegative => leftNegative || !rightNegative
  | _, _ => false

end Binary64

end SchemaOrder
