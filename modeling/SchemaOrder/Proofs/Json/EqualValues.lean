import Mathlib.Data.Int.ModEq
import Mathlib.Data.Nat.ModEq
import SchemaOrder.Json.Equality
import SchemaOrder.Proofs.Number.ExactPositions

/-!
# Equal values

Values of different kinds may count as the same, numbers by what they are worth. Values that have
a digest are told apart by equality as things of one kind are: equality of theirs is symmetric and
transitive. `digest_eq_of_agrees` says that equal values, whatever their kinds are, have the same
digest or are both without one, for the same reason.
-/

namespace SchemaOrder.Json

namespace Quantity

variable {left right : Quantity}

/-- Numbers are equal exactly if they stand at the same place. -/
theorem agrees_iff : left.agrees right = true ↔ left.exact.position = right.exact.position := by
  rw [← Binary64.sameValue_iff]
  cases left with
  | whole left => cases right with
    | whole right => simp [agrees, exact, Binary64.exactly_sameValue_iff]
    | binary right => simp [agrees, exact, Binary64.toInt?_eq_some_iff]
  | binary left => cases right with
    | whole right =>
        simp only [agrees, exact, decide_eq_true_eq, Binary64.toInt?_eq_some_iff,
          Binary64.sameValue_iff]
        exact eq_comm
    | binary right => rfl

/-- A number is at most another one exactly if it stands before it or at the same place. -/
theorem isAtMost_iff : left.isAtMost right = true ↔ ∃ first second,
    left.exact.position = some first ∧ right.exact.position = some second ∧ first ≤ second :=
  Binary64.isAtMost_iff

end Quantity

variable {left middle right : Json}

/-- A number agrees with what is a number equal to it. -/
theorem agrees_of_quantity {number : Quantity} (isNumber : left.quantity? = some number) :
    left.agrees right =
      match right.quantity? with
      | some other => number.agrees other
      | none => false := by
  cases left with
  | null | text | array | object => cases isNumber
  | boolean | integer | float => cases isNumber; rfl

/-- What agrees with a number is a number that stands at the same place. -/
theorem agrees_iff_of_quantity {number : Quantity} (isNumber : left.quantity? = some number) :
    left.agrees right = true ↔ ∃ other, right.quantity? = some other ∧
      number.exact.position = other.exact.position := by
  rw [agrees_of_quantity isNumber]
  cases right.quantity? with
  | none => simp
  | some other => simp [Quantity.agrees_iff]

/-- What agrees with null is null. -/
theorem null_agrees_iff : Json.null.agrees right = true ↔ right = .null := by
  cases right with
  | null => exact iff_of_true rfl rfl
  | boolean | integer | float | text | array | object => exact iff_of_false nofun nofun

/-- What agrees with a text is that text. -/
theorem text_agrees_iff {content : Text} :
    (Json.text content).agrees right = true ↔ right = .text content := by
  cases right with
  | text other =>
      have compared : (Json.text content).agrees (.text other) = decide (content = other) := rfl
      simp [compared, eq_comm]
  | null | boolean | integer | float | array | object => exact iff_of_false nofun nofun

/-- Texts are equal to texts only. -/
theorem exists_text_iff_of_agrees (same : left.agrees right = true) :
    (∃ content, left = .text content) ↔ ∃ content, right = .text content := by
  constructor
  · rintro ⟨content, rfl⟩
    exact ⟨content, text_agrees_iff.mp same⟩
  · rintro ⟨content, rfl⟩
    cases left with
    | text content => exact ⟨content, rfl⟩
    | null | boolean | integer | float | array | object => cases same

/-- Numbers are equal to numbers only. -/
theorem exists_quantity_iff_of_agrees (same : left.agrees right = true) :
    (∃ number, left.quantity? = some number) ↔ ∃ number, right.quantity? = some number := by
  constructor
  · rintro ⟨number, isNumber⟩
    obtain ⟨other, isOther, -⟩ := (agrees_iff_of_quantity isNumber).mp same
    exact ⟨other, isOther⟩
  · rintro ⟨number, isNumber⟩
    cases right with
    | null | text | array | object => cases isNumber
    | boolean | integer | float =>
        cases left with
        | boolean | integer | float => exact ⟨_, rfl⟩
        | null | text | array | object => cases same

/-- What agrees with a number agrees with it from either side. -/
theorem agrees_symm_of_quantity {number : Quantity} (isNumber : right.quantity? = some number)
    (same : left.agrees right = true) : right.agrees left = true := by
  obtain ⟨other, isOther⟩ := (exists_quantity_iff_of_agrees same).mpr ⟨number, isNumber⟩
  obtain ⟨number', isNumber', samePlace⟩ := (agrees_iff_of_quantity isOther).mp same
  exact (agrees_iff_of_quantity isNumber').mpr ⟨other, isOther, samePlace.symm⟩

/-- A value by which it can be found again in a hashed collection. -/
def IsHashable (value : Json) : Prop :=
  ∃ digest, value.digest = .ok digest

/-- Texts are hashable. -/
theorem isHashable_text (content : Text) : IsHashable (.text content) := by
  cases content <;> exact ⟨_, rfl⟩

/-- A hashable value is null, a text or a number. -/
theorem IsHashable.cases (hashable : IsHashable left) :
    left = .null ∨ (∃ content, left = .text content) ∨ ∃ number, left.quantity? = some number := by
  obtain ⟨digest, isDigest⟩ := hashable
  cases left with
  | null => exact .inl rfl
  | text content => exact .inr (.inl ⟨content, rfl⟩)
  | boolean | integer | float => exact .inr (.inr ⟨_, rfl⟩)
  | array | object => cases isDigest

/-- A hashable value is equal to itself. -/
theorem IsHashable.agrees_self (hashable : IsHashable left) : left.agrees left = true := by
  rcases hashable.cases with rfl | ⟨content, rfl⟩ | ⟨number, isNumber⟩
  · exact null_agrees_iff.mpr rfl
  · exact text_agrees_iff.mpr rfl
  · exact (agrees_iff_of_quantity isNumber).mpr ⟨number, isNumber, rfl⟩

/-- Equality of hashable values is symmetric. -/
theorem IsHashable.agrees_symm (hashable : IsHashable left) (same : left.agrees right = true) :
    right.agrees left = true := by
  rcases hashable.cases with rfl | ⟨content, rfl⟩ | ⟨number, isNumber⟩
  · rw [null_agrees_iff.mp same]
    exact null_agrees_iff.mpr rfl
  · rw [text_agrees_iff.mp same]
    exact text_agrees_iff.mpr rfl
  · obtain ⟨other, isOther, samePlace⟩ := (agrees_iff_of_quantity isNumber).mp same
    exact (agrees_iff_of_quantity isOther).mpr ⟨number, isNumber, samePlace.symm⟩

/-- Equality of hashable values is transitive. -/
theorem IsHashable.agrees_trans (hashable : IsHashable left) (first : left.agrees middle = true)
    (second : middle.agrees right = true) : left.agrees right = true := by
  rcases hashable.cases with rfl | ⟨content, rfl⟩ | ⟨number, isNumber⟩
  · rwa [null_agrees_iff.mp first] at second
  · rwa [text_agrees_iff.mp first] at second
  · obtain ⟨other, isOther, samePlace⟩ := (agrees_iff_of_quantity isNumber).mp first
    obtain ⟨third, isThird, samePlace'⟩ := (agrees_iff_of_quantity isOther).mp second
    exact (agrees_iff_of_quantity isNumber).mpr ⟨third, isThird, samePlace.trans samePlace'⟩

/-- Powers of two have the same residue where their exponents differ by whole turns of sixty-one. -/
theorem pow_two_modEq {first second : Nat} (same : first ≡ second [MOD 61]) :
    Nat.pow 2 first ≡ Nat.pow 2 second [MOD digestModulus] := by
  have turn : ∀ exponent, Nat.pow 2 exponent ≡ Nat.pow 2 (exponent % 61) [MOD digestModulus] := by
    intro exponent
    have whole : Nat.pow 2 61 ≡ 1 [MOD digestModulus] := by decide
    have turns := (whole.pow (exponent / 61)).mul_right (Nat.pow 2 (exponent % 61))
    have split : Nat.pow 2 exponent =
        Nat.pow 2 61 ^ (exponent / 61) * Nat.pow 2 (exponent % 61) := by
      simp only [Nat.pow_eq]
      rw [← Nat.pow_mul, ← Nat.pow_add, Nat.div_add_mod]
    rw [split]
    simpa using turns
  have here := turn first
  rw [same] at here
  exact here.trans (turn second).symm

/-- The residue of a finite number is that of its size in smaller units. -/
theorem residue_modEq {least exponent : Int} (above : least ≤ exponent) (significand : Nat) :
    significand * Nat.pow 2 (exponent % 61).toNat ≡
      significand * Nat.pow 2 (exponent - least).toNat * Nat.pow 2 (least % 61).toNat
      [MOD digestModulus] := by
  have sameTurn : (exponent % 61).toNat ≡ (exponent - least).toNat + (least % 61).toNat
      [MOD 61] := by
    unfold Nat.ModEq
    omega
  have power := (pow_two_modEq sameTurn).mul_left significand
  simpa only [Nat.pow_eq, Nat.pow_add, mul_assoc] using power

/-- The residue of a signed size depends on the residue of the size and on the sign of a size that
is not zero. -/
theorem signedResidue_congr {first second : Bool} {size other : Nat}
    (same : size ≡ other [MOD digestModulus])
    (signs : first = second ∨ size ≡ 0 [MOD digestModulus]) :
    signedResidue first size = signedResidue second other := by
  rcases signs with rfl | zero
  · simp only [signedResidue, show size % digestModulus = other % digestModulus from same]
  · have none : size % digestModulus = 0 := by simpa [Nat.ModEq] using zero
    have noneOther : other % digestModulus = 0 := by rw [← same, none]
    cases first <;> cases second <;> simp [signedResidue, none, noneOther]

/-- Binary numbers of the same value have the same digest. -/
theorem digest_float_eq {first second : Binary64} (same : first.sameValue second = true) :
    digest (.float first) = digest (.float second) := by
  cases first with
  | nan => cases second <;> first | rfl | cases same
  | infinite negative =>
      cases second with
      | infinite other =>
          have signs : negative = other := by simpa [Binary64.sameValue] using same
          rw [signs]
      | finite | nan => cases same
  | finite negative significand exponent =>
      cases second with
      | infinite | nan => cases same
      | finite other significand' exponent' =>
          simp only [Binary64.sameValue, Bool.and_eq_true, Bool.or_eq_true,
            decide_eq_true_eq] at same
          obtain ⟨sameSize, signs⟩ := same
          have left := residue_modEq (min_le_left exponent exponent') significand
          have right := residue_modEq (min_le_right exponent exponent') significand'
          rw [← sameSize] at right
          have zero : significand * Nat.pow 2 (exponent - min exponent exponent').toNat = 0 →
              significand * Nat.pow 2 (exponent % 61).toNat ≡ 0 [MOD digestModulus] := by
            intro none
            rw [none, Nat.zero_mul] at left
            exact left
          exact congrArg (fun residue => Except.ok (Digest.number residue))
            (signedResidue_congr (left.trans right.symm) (signs.imp_right zero))

/-- A value that counts as a number has the digest of the number. -/
theorem digest_eq_of_quantity {value : Json} {number : Quantity}
    (isNumber : value.quantity? = some number) :
    value.digest = digest (.float number.exact) := by
  cases value with
  | null | text | array | object => cases isNumber
  | float => cases isNumber; rfl
  | boolean flag =>
      cases isNumber
      cases flag <;> rfl
  | integer number =>
      cases isNumber
      exact congrArg (fun size => Except.ok (Digest.number (signedResidue (number < 0) size)))
        (Nat.mul_one number.natAbs).symm

/-- Equal values have the same digest, or none of them has one. -/
theorem digest_eq_of_agrees (same : left.agrees right = true) : left.digest = right.digest := by
  cases left with
  | null => rw [null_agrees_iff.mp same]
  | text => rw [text_agrees_iff.mp same]
  | boolean | integer | float =>
      obtain ⟨other, isOther, samePlace⟩ := (agrees_iff_of_quantity rfl).mp same
      rw [digest_eq_of_quantity rfl, digest_eq_of_quantity isOther]
      exact digest_float_eq (Binary64.sameValue_iff.mpr samePlace)
  | array => cases right <;> first | rfl | cases same
  | object => cases right <;> first | rfl | cases same

mutual

/-- A digest is equal to itself. -/
theorem Digest.same_self : ∀ digest : Digest, digest.same digest = true
  | .absent | .undefinedNumber => by simp [Digest.same]
  | .number _ | .text _ => by simp [Digest.same]
  | .tuple parts => by rw [Digest.same, Digest.allSame_self parts]

/-- A list of digests is equal to itself. -/
theorem Digest.allSame_self : ∀ digests : List Digest, Digest.allSame digests digests = true
  | [] => by simp [Digest.allSame]
  | first :: rest => by
    rw [Digest.allSame, Digest.same_self first, Digest.allSame_self rest, Bool.and_self]

end

end SchemaOrder.Json
