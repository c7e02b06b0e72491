/-!
# Code points

This module holds the unit every text of the library is made of: a Unicode code
point, surrogates included. A schema that arrives as JSON may spell an unpaired
surrogate with an escape, so the unit is wider than a Unicode scalar value. The
character classes here are the ASCII ones of the schema language; classes of all
of Unicode are in `SchemaOrder.Text.Printable`.
-/

namespace SchemaOrder

/-- A Unicode code point: a number below `0x110000`. -/
structure CodePoint where
  /-- The number of the code point. -/
  value : Nat
  /-- No code point lies beyond the last plane. -/
  inRange : value < 0x110000 := by decide
deriving DecidableEq

namespace CodePoint

/-- Code points are equal when their numbers are. -/
@[ext] theorem ext {left right : CodePoint} (values : left.value = right.value) :
    left = right := by
  cases left; cases right; cases values; rfl

/-- The code point of a character, which is never a surrogate. -/
def ofChar (character : Char) : CodePoint :=
  ⟨character.toNat, by
    have bound := character.valid
    simp only [Char.toNat, UInt32.isValidChar, Nat.isValidChar] at *
    omega⟩

instance : Coe Char CodePoint := ⟨ofChar⟩

instance : Inhabited CodePoint := ⟨⟨0, by decide⟩⟩

instance : Repr CodePoint := ⟨fun codePoint precedence => reprPrec codePoint.value precedence⟩

/-- The code point with the given number, or the replacement character where the
number names none. -/
def ofNat (number : Nat) : CodePoint :=
  if bound : number < 0x110000 then ⟨number, bound⟩ else ⟨0xFFFD, by decide⟩

/-- A number that names a code point is kept. -/
theorem value_ofNat {number : Nat} (bound : number < 0x110000) :
    (ofNat number).value = number := by
  simp [ofNat, bound]

/-- Whether the code point lies between two characters, both included. -/
def isWithin (codePoint : CodePoint) (first last : Char) : Bool :=
  first.toNat ≤ codePoint.value && codePoint.value ≤ last.toNat

/-- The decimal digits of ASCII. -/
def isDigit (codePoint : CodePoint) : Bool :=
  codePoint.isWithin '0' '9'

/-- The letters of ASCII. -/
def isLetter (codePoint : CodePoint) : Bool :=
  codePoint.isWithin 'a' 'z' || codePoint.isWithin 'A' 'Z'

/-- What a name of the schema language may begin with. -/
def isNameStart (codePoint : CodePoint) : Bool :=
  codePoint.isLetter || codePoint.value == '_'.toNat

/-- What a name of the schema language may go on with. -/
def isNameContinue (codePoint : CodePoint) : Bool :=
  codePoint.isNameStart || codePoint.isDigit

/-- Whatever begins a name may also stand inside it. -/
theorem isNameContinue_of_isNameStart {codePoint : CodePoint}
    (start : codePoint.isNameStart = true) : codePoint.isNameContinue = true := by
  simp [isNameContinue, start]

/-- The space and the tabulator, the blanks that indent a line. -/
def isBlank (codePoint : CodePoint) : Bool :=
  codePoint.value == ' '.toNat || codePoint.value == '\t'.toNat

/-- The first half of a surrogate pair. -/
def isHighSurrogate (codePoint : CodePoint) : Bool :=
  0xD800 ≤ codePoint.value && codePoint.value ≤ 0xDBFF

/-- The second half of a surrogate pair. -/
def isLowSurrogate (codePoint : CodePoint) : Bool :=
  0xDC00 ≤ codePoint.value && codePoint.value ≤ 0xDFFF

/-- A code point that stands for no character by itself. -/
def isSurrogate (codePoint : CodePoint) : Bool :=
  codePoint.isHighSurrogate || codePoint.isLowSurrogate

/-- The value of a hexadecimal digit, in either case. -/
def hexDigit? (codePoint : CodePoint) : Option Nat :=
  if codePoint.isDigit then some (codePoint.value - '0'.toNat)
  else if codePoint.isWithin 'a' 'f' then some (codePoint.value - 'a'.toNat + 10)
  else if codePoint.isWithin 'A' 'F' then some (codePoint.value - 'A'.toNat + 10)
  else none

/-- The small letter of an ASCII capital; everything else is kept. -/
def lower (codePoint : CodePoint) : CodePoint :=
  if codePoint.isWithin 'A' 'Z' then ofNat (codePoint.value + 32) else codePoint

end CodePoint

end SchemaOrder
