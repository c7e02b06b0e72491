import SchemaOrder.Number.Binary64

/-!
# Decimal forms of binary numbers

This module holds the decimal form in which floating-point numbers are written: the
shortest one that reads back as the same number. Messages and JSON show a whole number
with a fraction of zero, and the default values of a schema show it without one.
-/

namespace SchemaOrder

/-- A positive decimal number: `digits` written one after the other, with the decimal
point `point` places behind the first place. -/
structure DecimalForm where
  /-- The digits, as one number without trailing zeros. -/
  digits : Nat
  /-- How many of the digits stand before the decimal point; more than there are, or
  less than none, moves the point past them. -/
  point : Int
deriving DecidableEq, Repr

namespace DecimalForm

/-- The digits without the zeros at their end. -/
def trimZeros (fuel : Nat) (digits : Nat) : Nat :=
  match fuel with
  | 0 => digits
  | fuel + 1 =>
    if digits ≠ 0 && digits % 10 = 0 then trimZeros fuel (digits / 10) else digits

/-- The form of `digits * 10 ^ power`. -/
def ofScaled (digits : Nat) (power : Int) : DecimalForm :=
  ⟨trimZeros (Binary64.decimalWidth digits) digits,
    (Binary64.decimalWidth digits : Int) + power⟩

/-- Where the decimal point of a positive fraction stands: the least power of ten
above it. -/
def pointOf (numerator denominator : Nat) : Int :=
  let guess := (Binary64.decimalWidth numerator : Int) - Binary64.decimalWidth denominator
  -- the fraction lies between `10 ^ (guess - 1)` and `10 ^ (guess + 1)`
  let reaches :=
    if guess < 0 then denominator ≤ numerator * Nat.pow 10 guess.natAbs
    else denominator * Nat.pow 10 guess.natAbs ≤ numerator
  if reaches then guess + 1 else guess

/-- The fraction counted in units of `10 ^ power`, itself as a fraction. -/
def inUnits (numerator denominator : Nat) (power : Int) : Nat × Nat :=
  if power < 0 then (numerator * Nat.pow 10 power.natAbs, denominator)
  else (numerator, denominator * Nat.pow 10 power.natAbs)

/-- The form of a positive fraction rounded to a number of significant digits. -/
def rounded (width : Nat) (numerator denominator : Nat) : DecimalForm :=
  let power := pointOf numerator denominator - width
  let units := inUnits numerator denominator power
  ofScaled (Binary64.roundQuotient units.1 units.2) power

/-- Whether `units * 10 ^ power` is read as the positive number
`significand * 2 ^ exponent`. -/
def readsBack (significand : Nat) (exponent : Int) (units : Nat) (power : Int) : Bool :=
  Binary64.ofDecimal false units power = .finite false significand exponent

/-- The shortest form of a positive number, widths tried from `width` on. Of two forms
of one width the nearer one is taken, and of two that are equally near the even one. -/
def shortestFrom (fuel width : Nat) (significand : Nat) (exponent : Int) : DecimalForm :=
  let value := Binary64.scale significand 1 (-exponent)
  match fuel with
  | 0 => rounded width value.1 value.2
  | fuel + 1 =>
    let power := pointOf value.1 value.2 - width
    let units := inUnits value.1 value.2 power
    let nearest := Binary64.roundQuotient units.1 units.2
    let below := units.1 / units.2
    let other := if nearest = below then below + 1 else below
    if readsBack significand exponent nearest power then ofScaled nearest power
    else if readsBack significand exponent other power then ofScaled other power
    else shortestFrom fuel (width + 1) significand exponent

/-- The shortest form of a positive number. Seventeen digits always suffice. -/
def shortest (significand : Nat) (exponent : Int) : DecimalForm :=
  shortestFrom 16 1 significand exponent

/-- The digits of the form. -/
def digitText (form : DecimalForm) : Text :=
  Text.ofNat form.digits

/-- The form with a decimal point at its place. `whole` is what follows where no digit
stands behind the point. -/
def positional (form : DecimalForm) (whole : Text) : Text :=
  let digits := form.digitText
  if form.point ≤ 0 then
    "0." ++ Text.repeated form.point.natAbs '0' ++ digits
  else
    let before := form.point.toNat
    if digits.length ≤ before then
      digits ++ Text.repeated (before - digits.length) '0' ++ whole
    else digits.take before ++ "." ++ digits.drop before

/-- The form with one digit before the decimal point and a power of ten, whose
exponent has a sign and at least two digits. -/
def scientific (form : DecimalForm) : Text :=
  let digits := form.digitText
  let exponent := form.point - 1
  let sign : Text := if exponent < 0 then "-" else "+"
  let fraction : Text := if digits.length ≤ 1 then [] else "." ++ digits.drop 1
  digits.take 1 ++ fraction ++ "e" ++ sign ++ Text.padLeft 2 (Text.ofNat exponent.natAbs) '0'

end DecimalForm

namespace Binary64

/-- The words for a number, its sign in front. -/
def signed (negative : Bool) (text : Text) : Text :=
  if negative then "-" ++ text else text

/-- The shortest text that is read back as the number, positional from `1e-4` up to `1e16`.
`whole` is what follows a whole number that is written positionally. -/
def textWith (whole : Text) : Binary64 → Text
  | .nan => "nan"
  | .infinite negative => signed negative "inf"
  | .finite negative significand exponent =>
    if significand = 0 then signed negative ("0" ++ whole)
    else
      let form := DecimalForm.shortest significand exponent
      signed negative <|
        if -4 < form.point && form.point ≤ 16 then form.positional whole else form.scientific

/-- The shortest text that shows the number to be no integer. -/
def shortestText (number : Binary64) : Text :=
  number.textWith ".0"

/-- The shortest text of the number, the same as that of an integer where it is whole and
written positionally. -/
def plainText (number : Binary64) : Text :=
  number.textWith []

end Binary64

end SchemaOrder
