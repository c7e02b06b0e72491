import Mathlib.Algebra.Order.Field.Power
import Mathlib.Algebra.Order.Ring.Rat
import Mathlib.Data.Prod.Lex
import Mathlib.Tactic.Ring
import SchemaOrder.Number.Binary64

/-!
# Positions of binary numbers

Every binary number but the undefined one has a position: finite numbers stand by their rational
values, and the infinities before and behind all of them. `isAtMost_iff` and `sameValue_iff` say
that numbers are compared by their positions, exactly and without rounding, and
`toInt?_eq_some_iff` that a number which is an integer stands where the integer does.
-/

namespace SchemaOrder.Binary64

/-- The rational number of a sign, a significand and an exponent. -/
def rational (negative : Bool) (significand : Nat) (exponent : Int) : ℚ :=
  (if negative then -(significand : ℚ) else significand) * 2 ^ exponent

/-- Where a number stands; the undefined number stands nowhere. -/
def position : Binary64 → Option (ℤ ×ₗ ℚ)
  | .finite negative significand exponent =>
    some (toLex (0, rational negative significand exponent))
  | .infinite negative => some (toLex (if negative then -1 else 1, 0))
  | .nan => none

/-- The signed number of units of `2 ^ least` that make a number whose exponent is not below. -/
def unitsOf (least : Int) (negative : Bool) (significand : Nat) (exponent : Int) : Int :=
  let size : Nat := significand * Nat.pow 2 (exponent - least).toNat
  if negative then -(size : Int) else size

/-- A number is its units times their size. -/
theorem cast_unitsOf {least exponent : Int} (above : least ≤ exponent) (negative : Bool)
    (significand : Nat) : (unitsOf least negative significand exponent : ℚ) * 2 ^ least =
      rational negative significand exponent := by
  have power : (2 : ℚ) ^ (exponent - least).toNat * 2 ^ least = 2 ^ exponent := by
    rw [← zpow_natCast, ← zpow_add₀ (by norm_num : (2 : ℚ) ≠ 0)]
    congr 1
    omega
  cases negative
  · simp [unitsOf, rational, mul_assoc, power]
  · simp [unitsOf, rational, mul_assoc, power]

variable {leftNegative rightNegative : Bool} {leftSignificand rightSignificand : Nat}
  {leftExponent rightExponent : Int} {left right : Binary64}

/-- Numbers compare as their units do. -/
theorem rational_le_iff {least : Int} (leftAbove : least ≤ leftExponent)
    (rightAbove : least ≤ rightExponent) :
    rational leftNegative leftSignificand leftExponent ≤
        rational rightNegative rightSignificand rightExponent ↔
      unitsOf least leftNegative leftSignificand leftExponent ≤
        unitsOf least rightNegative rightSignificand rightExponent := by
  rw [← cast_unitsOf leftAbove, ← cast_unitsOf rightAbove,
    mul_le_mul_iff_of_pos_right (zpow_pos (by norm_num) least), Int.cast_le]

/-- Numbers are the same where their units are. -/
theorem rational_eq_iff {least : Int} (leftAbove : least ≤ leftExponent)
    (rightAbove : least ≤ rightExponent) :
    rational leftNegative leftSignificand leftExponent =
        rational rightNegative rightSignificand rightExponent ↔
      unitsOf least leftNegative leftSignificand leftExponent =
        unitsOf least rightNegative rightSignificand rightExponent := by
  rw [le_antisymm_iff, rational_le_iff leftAbove rightAbove,
    rational_le_iff rightAbove leftAbove, ← le_antisymm_iff]

/-- A number is at most another one exactly if it stands before it or at the same place. -/
theorem isAtMost_iff : left.isAtMost right = true ↔
    ∃ first second, left.position = some first ∧ right.position = some second ∧
      first ≤ second := by
  cases left with
  | nan => simp [isAtMost, position]
  | infinite leftNegative =>
      cases right with
      | nan => simp [isAtMost, position]
      | infinite rightNegative =>
          cases leftNegative <;> cases rightNegative <;>
            simp [isAtMost, position, Prod.Lex.toLex_le_toLex]
      | finite => cases leftNegative <;> simp [isAtMost, position, Prod.Lex.toLex_le_toLex]
  | finite leftNegative leftSignificand leftExponent =>
      cases right with
      | nan => simp [isAtMost, position]
      | infinite rightNegative =>
          cases rightNegative <;> simp [isAtMost, position, Prod.Lex.toLex_le_toLex]
      | finite rightNegative rightSignificand rightExponent =>
          have units := @rational_le_iff leftNegative rightNegative leftSignificand
            rightSignificand leftExponent rightExponent _ (min_le_left _ _) (min_le_right _ _)
          simp [isAtMost, position, Prod.Lex.toLex_le_toLex, units, unitsOf]

/-- Numbers have the same value exactly if they stand at the same place or are both undefined. -/
theorem sameValue_iff : left.sameValue right = true ↔ left.position = right.position := by
  cases left with
  | nan => cases right <;> simp [sameValue, position]
  | infinite leftNegative =>
      cases right with
      | nan => simp [sameValue, position]
      | infinite rightNegative =>
          cases leftNegative <;> cases rightNegative <;> simp [sameValue, position]
      | finite => cases leftNegative <;> simp [sameValue, position]
  | finite leftNegative leftSignificand leftExponent =>
      cases right with
      | nan => simp [sameValue, position]
      | infinite rightNegative => cases rightNegative <;> simp [sameValue, position]
      | finite rightNegative rightSignificand rightExponent =>
          have units := @rational_eq_iff leftNegative rightNegative leftSignificand
            rightSignificand leftExponent rightExponent _ (min_le_left _ _) (min_le_right _ _)
          simp only [sameValue, position, Bool.and_eq_true, Bool.or_eq_true, decide_eq_true_eq,
            Option.some.injEq, toLex_inj, Prod.mk.injEq, true_and, units, unitsOf]
          generalize leftSignificand * Nat.pow 2 (leftExponent - _).toNat = leftSize
          generalize rightSignificand * Nat.pow 2 (rightExponent - _).toNat = rightSize
          cases leftNegative <;> cases rightNegative <;> simp <;> omega

/-- An integer stands at itself. -/
theorem position_exactly (number : Int) :
    (exactly number).position = some (toLex (0, (number : ℚ))) := by
  have size : unitsOf 0 (decide (number < 0)) number.natAbs 0 = number := by
    have unit : number.natAbs * Nat.pow 2 (0 - 0 : Int).toNat = number.natAbs := Nat.mul_one _
    simp only [unitsOf, unit, decide_eq_true_eq]
    omega
  have same := cast_unitsOf (le_refl 0) (decide (number < 0)) number.natAbs
  rw [size, zpow_zero, mul_one] at same
  rw [exactly, position, same]

/-- Different integers have different values. -/
theorem exactly_sameValue_iff {first second : Int} :
    (exactly first).sameValue (exactly second) = true ↔ first = second := by
  simp [sameValue_iff, position_exactly]

/-- A number is an integer exactly if it has the value of the integer. -/
theorem toInt?_eq_some_iff {number : Int} :
    right.toInt? = some number ↔ (exactly number).sameValue right = true := by
  cases right with
  | nan => simp [toInt?, sameValue, exactly]
  | infinite => simp [toInt?, sameValue, exactly]
  | finite negative significand exponent =>
      have one : Nat.pow 2 0 = 1 := rfl
      simp only [toInt?, sameValue, exactly, Bool.and_eq_true, Bool.or_eq_true, decide_eq_true_eq]
      by_cases whole : 0 ≤ exponent
      · have shift : (exponent - min 0 exponent).toNat = exponent.natAbs := by omega
        have noShift : (0 - min 0 exponent).toNat = 0 := by omega
        simp only [whole, shift, noShift, one, if_true, Nat.mul_one, Option.map_some,
          Option.some.injEq]
        generalize significand * Nat.pow 2 exponent.natAbs = size
        cases negative <;> simp <;> omega
      · have noShift : (exponent - min 0 exponent).toNat = 0 := by omega
        have shift : (0 - min 0 exponent).toNat = exponent.natAbs := by omega
        simp only [whole, shift, noShift, one, if_false, Nat.mul_one]
        have positive : 0 < Nat.pow 2 exponent.natAbs := Nat.pow_pos (by decide)
        generalize Nat.pow 2 exponent.natAbs = unit at positive
        by_cases divides : significand % unit = 0
        · obtain ⟨size, rfl⟩ := Nat.dvd_of_mod_eq_zero divides
          rw [if_pos divides, Nat.mul_div_cancel_left size positive, Nat.mul_comm unit size,
            Nat.mul_left_inj positive.ne', Nat.mul_eq_zero, or_iff_left positive.ne',
            Option.map_some, Option.some.injEq]
          clear divides whole shift noShift
          cases negative <;> simp <;> omega
        · rw [if_neg divides]
          simp only [Option.map_none, reduceCtorEq, false_iff]
          rintro ⟨same, -⟩
          exact divides (same ▸ Nat.mul_mod_left _ _)

end SchemaOrder.Binary64
