import SchemaOrder.Json.Value

/-!
# Equality of JSON values

This module holds when two JSON values count as the same value, whatever the kinds of
their numbers, and the digest by which a hashed collection finds a value again. Truth
values count as the numbers zero and one. Collections have no digest.
-/

namespace SchemaOrder.Json

/-- A value as a number, where it is one. -/
inductive Quantity where
  | whole (value : Int)
  | binary (value : Binary64)
deriving DecidableEq, Repr

/-- The number a value counts as. -/
def quantity? : Json → Option Quantity
  | .boolean value => some (.whole (if value then 1 else 0))
  | .integer value => some (.whole value)
  | .float value => some (.binary value)
  | _ => none

/-- Whether two numbers are equal, exactly and without rounding. -/
def Quantity.agrees : Quantity → Quantity → Bool
  | .whole left, .whole right => left = right
  | .whole left, .binary right => right.toInt? = some left
  | .binary left, .whole right => left.toInt? = some right
  | .binary left, .binary right => left.sameValue right

/-- The exact value of a number. -/
def Quantity.exact : Quantity → Binary64
  | .whole value => .exactly value
  | .binary value => value

/-- Whether a number is below another one or equal to it, exactly and without rounding. -/
def Quantity.isAtMost (left right : Quantity) : Bool :=
  left.exact.isAtMost right.exact

mutual

/-- Whether two values count as the same. -/
def agrees : Json → Json → Bool
  | .null, .null => true
  | .text left, .text right => left = right
  | .array left, .array right => itemsAgree left right
  | .object left, .object right => left.length = right.length && membersAgree left right
  | .boolean left, right =>
    match quantity? right with
    | some number => (Quantity.whole (if left then 1 else 0)).agrees number
    | none => false
  | .integer left, right =>
    match quantity? right with
    | some number => (Quantity.whole left).agrees number
    | none => false
  | .float left, right =>
    match quantity? right with
    | some number => (Quantity.binary left).agrees number
    | none => false
  | _, _ => false

/-- Whether two lists of values have the same length and agree at every place. -/
def itemsAgree : List Json → List Json → Bool
  | [], [] => true
  | left :: lefts, right :: rights => agrees left right && itemsAgree lefts rights
  | _, _ => false

/-- Whether every member has its equal among the members of another object. -/
def membersAgree : List (Text × Json) → List (Text × Json) → Bool
  | [], _ => true
  | (name, value) :: rest, others =>
    (match others.find? fun member => member.1 = name with
      | some (_, other) => agrees value other
      | none => false) && membersAgree rest others

end

/-- What a hashed collection knows of a value. -/
inductive Digest where
  | absent
  | number (residue : Int)
  | undefinedNumber
  | text (content : Text)
  | tuple (parts : List Digest)
deriving Repr

mutual

/-- Whether two digests are equal. -/
def Digest.same : Digest → Digest → Bool
  | .absent, .absent => true
  | .number left, .number right => left = right
  | .undefinedNumber, .undefinedNumber => true
  | .text left, .text right => left = right
  | .tuple left, .tuple right => Digest.allSame left right
  | _, _ => false

/-- Whether two lists of digests are equal. -/
def Digest.allSame : List Digest → List Digest → Bool
  | [], [] => true
  | left :: lefts, right :: rights => Digest.same left right && Digest.allSame lefts rights
  | _, _ => false

end

/-- The modulus that digests of numbers are taken by. -/
def digestModulus : Nat := Nat.pow 2 61 - 1

/-- The residue of a signed size. The residue minus one is not in use: minus two stands
for it. -/
def signedResidue (negative : Bool) (size : Nat) : Int :=
  let residue : Int := (size % digestModulus : Nat)
  let signed := if negative then -residue else residue
  if signed = -1 then -2 else signed

/-- The residue of a binary number. Division by two is multiplication by `2 ^ 60`, since
`2 ^ 61` leaves the residue one. -/
def binaryResidue (negative : Bool) (significand : Nat) (exponent : Int) : Int :=
  signedResidue negative (significand * Nat.pow 2 (exponent % 61).toNat)

/-- The digest of a value, or the word for the kind of value that has none. -/
def digest : Json → Except Text Digest
  | .null => .ok .absent
  | .boolean value => .ok (.number (if value then 1 else 0))
  | .integer value => .ok (.number (signedResidue (value < 0) value.natAbs))
  | .float .nan => .ok .undefinedNumber
  | .float (.infinite negative) => .ok (.number (if negative then -314159 else 314159))
  | .float (.finite negative significand exponent) =>
    .ok (.number (binaryResidue negative significand exponent))
  | .text [] => .ok (.number 0)
  | .text content => .ok (.text content)
  | .array items => .error (kindName (.array items))
  | .object members => .error (kindName (.object members))

end SchemaOrder.Json
