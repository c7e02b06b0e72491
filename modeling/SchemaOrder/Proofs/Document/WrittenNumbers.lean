import Mathlib.Algebra.Group.Nat.Defs
import SchemaOrder.Number.Shortest
import SchemaOrder.Proofs.Document.Numbers

/-!
# The shape of written numbers

Whatever integer and whatever finite number of 64 bits is written, in whichever of the two forms,
has the shape of a number of the schema language. Integers are read as what they were written of.
That a number of 64 bits is the nearest one which reads back does not matter here.
-/

namespace SchemaOrder

open Document
open CodePoint (ofChar)

namespace Text

/-- A natural number is written as its digits. -/
theorem ofNat_eq (number : Nat) : ofNat number = (Nat.toDigits 10 number).map ofChar := by
  simp [ofNat, ofString, toString, Nat.repr]

/-- The digits of a number spell the number. -/
theorem digitsValue_ofNat (number : Nat) : digitsValue (ofNat number) = number := by
  have sameStep : ∀ (value : Nat) (digit : Char),
      value * 10 + ((ofChar digit).value - '0'.toNat) = 10 * value + (digit.toNat - '0'.toNat) :=
    fun value digit => congrArg (· + (digit.toNat - '0'.toNat)) (Nat.mul_comm value 10)
  rw [ofNat_eq, digitsValue, List.foldl_map]
  simp only [sameStep]
  exact Nat.ofDigitChars_toDigits (by decide) (by decide)

/-- A number that digits spell is smaller than every number with more digits. -/
theorem digitsValue_lt {digits : Text} (areDigits : ∀ digit ∈ digits, digit.isDigit = true) :
    digitsValue digits < 10 ^ digits.length := by
  induction digits using List.reverseRecOn with
  | nil => decide
  | append_singleton digits digit inductionHypothesis =>
      have before := inductionHypothesis fun digit mem => areDigits digit (by simp [mem])
      have isDigit := areDigits digit (by simp)
      have value : digitsValue (digits ++ [digit]) =
          digitsValue digits * 10 + (digit.value - '0'.toNat) := by
        rw [digitsValue, List.foldl_append]
        rfl
      have bound : digit.value - '0'.toNat < 10 := by
        simp only [CodePoint.isDigit, CodePoint.isWithin, Bool.and_eq_true, decide_eq_true_eq]
          at isDigit
        have nine : '9'.toNat = '0'.toNat + 9 := rfl
        omega
      rw [value, List.length_append, List.length_singleton, Nat.pow_succ]
      omega

/-- No number is written with more digits than others that spell it. -/
theorem length_ofNat_le {digits : Text} (isDigits : IsDigits digits) :
    (ofNat (digitsValue digits)).length ≤ digits.length := by
  rw [ofNat_eq, List.length_map, Nat.length_toDigits_le_iff (by decide)
    (List.length_pos_of_ne_nil isDigits.1)]
  exact digitsValue_lt isDigits.2

end Text

namespace Document

/-- A digit of a character set is a digit. -/
theorem isDigit_ofChar {character : Char} (isDigit : character.isDigit = true) :
    (ofChar character).isDigit = true := by
  have value : (ofChar character).value = character.toNat := rfl
  simp only [Char.isDigit, Bool.and_eq_true, decide_eq_true_eq, UInt32.le_iff_toNat_le,
    ge_iff_le] at isDigit
  simp only [CodePoint.isDigit, CodePoint.isWithin, value, Bool.and_eq_true, decide_eq_true_eq]
  exact isDigit

/-- A natural number is written in digits. -/
theorem isDigits_ofNat (number : Nat) : IsDigits (Text.ofNat number) := by
  rw [Text.ofNat_eq]
  refine ⟨by simp [Nat.toDigits_ne_nil], fun codePoint mem => ?_⟩
  obtain ⟨digit, digitMem, rfl⟩ := List.mem_map.mp mem
  exact isDigit_ofChar (Nat.isDigit_of_mem_toDigits (by decide) (by decide) digitMem)

/-- Digits may be followed by digits. -/
theorem IsDigits.append {first second : Text} (isDigits : IsDigits first)
    (areDigits : ∀ codePoint ∈ second, codePoint.isDigit = true) : IsDigits (first ++ second) := by
  refine ⟨by simp [isDigits.1], fun codePoint mem => ?_⟩
  rcases List.mem_append.mp mem with inFirst | inSecond
  · exact isDigits.2 codePoint inFirst
  · exact areDigits codePoint inSecond

/-- The first ones of digits, at least one, are digits. -/
theorem IsDigits.take {digits : Text} (isDigits : IsDigits digits) {count : Nat}
    (positive : count ≠ 0) : IsDigits (digits.take count) := by
  refine ⟨?_, fun codePoint mem => isDigits.2 codePoint (List.mem_of_mem_take mem)⟩
  rw [Ne, List.take_eq_nil_iff, not_or]
  exact ⟨positive, isDigits.1⟩

/-- What is left of digits that are not all taken is digits. -/
theorem IsDigits.drop {digits : Text} (isDigits : IsDigits digits) {count : Nat}
    (long : ¬digits.length ≤ count) : IsDigits (digits.drop count) := by
  refine ⟨?_, fun codePoint mem => isDigits.2 codePoint (List.mem_of_mem_drop mem)⟩
  rwa [Ne, List.drop_eq_nil_iff]

/-- A point in front of digits makes them a fraction. -/
theorem IsDigits.isFraction {digits : Text} (isDigits : IsDigits digits) :
    IsFraction ("." ++ digits) :=
  .inr ⟨digits, rfl, isDigits⟩

/-- Repeated zeros are digits. -/
theorem areDigits_repeated (count : Nat) :
    ∀ codePoint ∈ Text.repeated count '0', codePoint.isDigit = true := by
  intro codePoint mem
  rw [List.eq_of_mem_replicate mem]
  rfl

/-- A number keeps its shape under a minus sign. -/
theorem isNumber_signed (negative : Bool) {whole fraction exponent : Text}
    (isDigits : IsDigits whole) (isFraction : IsFraction fraction)
    (isExponent : IsExponent exponent) :
    IsNumber (Binary64.signed negative (whole ++ fraction ++ exponent)) := by
  cases negative with
  | false => exact ⟨[], whole, fraction, exponent, rfl, .inl rfl, isDigits, isFraction, isExponent⟩
  | true =>
      exact ⟨[ofChar '-'], whole, fraction, exponent, by simp [Binary64.signed]; rfl, .inr rfl,
        isDigits, isFraction, isExponent⟩

end Document

namespace DecimalForm

/-- The digits of a number are digits. -/
theorem isDigits_digitText (form : DecimalForm) : IsDigits form.digitText :=
  isDigits_ofNat form.digits

/-- The positional form of a number has the shape of a number, whether the point stands before,
within or behind its digits. -/
theorem positional_parts (form : DecimalForm) : ∃ whole fraction,
    form.positional [] = whole ++ fraction ∧ IsDigits whole ∧ IsFraction fraction := by
  have areDigits := form.isDigits_digitText
  simp only [positional]
  split
  · have behind : IsDigits (Text.repeated form.point.natAbs '0' ++ form.digitText) := by
      refine ⟨by simp [areDigits.1], fun codePoint mem => ?_⟩
      rcases List.mem_append.mp mem with isZero | isDigit
      · exact areDigits_repeated _ codePoint isZero
      · exact areDigits.2 codePoint isDigit
    exact ⟨"0", _, by rw [List.append_assoc]; rfl, ⟨nofun, by decide⟩, behind.isFraction⟩
  · next positive =>
    split
    · exact ⟨_, [], rfl, areDigits.append (areDigits_repeated _), .inl rfl⟩
    · next short =>
      have inFront : IsDigits (form.digitText.take form.point.toNat) := areDigits.take (by omega)
      exact ⟨_, _, List.append_assoc .., inFront, (areDigits.drop short).isFraction⟩

/-- The scientific form of a number has the shape of a number. -/
theorem scientific_parts (form : DecimalForm) : ∃ whole fraction exponent,
    form.scientific = whole ++ fraction ++ exponent ∧ IsDigits whole ∧ IsFraction fraction ∧
      IsExponent exponent := by
  have areDigits := form.isDigits_digitText
  have exponentDigits : IsDigits (Text.padLeft 2 (Text.ofNat (form.point - 1).natAbs) '0') := by
    have written := isDigits_ofNat (form.point - 1).natAbs
    refine ⟨by simp [Text.padLeft, written.1], fun codePoint mem => ?_⟩
    rcases List.mem_append.mp mem with isZero | isDigit
    · exact areDigits_repeated _ codePoint isZero
    · exact written.2 codePoint isDigit
  have others : IsFraction (if form.digitText.length ≤ 1 then [] else
      "." ++ form.digitText.drop 1) := by
    split
    · exact .inl rfl
    · next long => exact (areDigits.drop long).isFraction
  refine ⟨_, _, "e" ++ (if form.point - 1 < 0 then Text.ofString "-" else Text.ofString "+") ++
    Text.padLeft 2 (Text.ofNat (form.point - 1).natAbs) '0', ?_, areDigits.take Nat.one_ne_zero,
    others, ?_⟩
  · simp only [scientific, List.append_assoc]
  · split
    · exact .inr ⟨ofChar '-', _, rfl, .inr rfl, exponentDigits⟩
    · exact .inr ⟨ofChar '+', _, rfl, .inl rfl, exponentDigits⟩

end DecimalForm

namespace Document

/-- Every finite number is written in the shape of a number. -/
theorem isNumber_plainText {number : Binary64} (isFinite : number.isFinite = true) :
    IsNumber number.plainText := by
  obtain ⟨negative, significand, exponent⟩ | _ | _ := number
  case infinite | nan => cases isFinite
  simp only [Binary64.plainText, Binary64.textWith]
  split
  · have zero : IsDigits "0" := ⟨nofun, by decide⟩
    simpa using isNumber_signed negative zero (.inl rfl) (.inl rfl)
  · split
    · obtain ⟨whole, fraction, written, isDigits, isFraction⟩ :=
        (DecimalForm.shortest significand exponent).positional_parts
      rw [written]
      simpa using isNumber_signed negative isDigits isFraction (.inl rfl)
    · obtain ⟨whole, fraction, power, written, isDigits, isFraction, isExponent⟩ :=
        (DecimalForm.shortest significand exponent).scientific_parts
      rw [written]
      exact isNumber_signed negative isDigits isFraction isExponent

end Document

end SchemaOrder
