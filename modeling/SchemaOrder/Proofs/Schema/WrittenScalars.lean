import SchemaOrder.Proofs.Schema.FittingValues

/-!
# Values of scalar types that are read as they were written

A value of a scalar type is written as a literal that has the same value there. Two kinds of numbers
are left aside: numbers with fractions, which are written in decimals, and identifiers with a line
feed behind their digits, of which the line feed is lost.
-/

namespace SchemaOrder

open Schema Coercion Outcome
open Document (Literal IsInteger IsDigits isDigits_ofNat withoutFeed)
open CodePoint (ofChar)

namespace Value

mutual

/-- Whether a value is a number with a fraction, or holds one. -/
def holdsFloat : Value → Bool
  | .float _ => true
  | .list items => itemsHoldFloat items
  | .object fields => fieldsHoldFloat fields
  | .null | .boolean _ | .integer _ | .text _ | .unbound => false

/-- Whether items hold numbers with fractions. -/
def itemsHoldFloat : List Value → Bool
  | [] => false
  | item :: rest => holdsFloat item || itemsHoldFloat rest

/-- Whether fields hold numbers with fractions. -/
def fieldsHoldFloat : List (Text × Value) → Bool
  | [] => false
  | (_, value) :: rest => holdsFloat value || fieldsHoldFloat rest

end

/-- Items hold a floating-point number if one of them does. -/
theorem itemsHoldFloat_eq (items : List Value) : itemsHoldFloat items = items.any holdsFloat := by
  induction items with
  | nil => rfl
  | cons item rest inductionHypothesis => rw [itemsHoldFloat, inductionHypothesis, List.any_cons]

/-- So do fields. -/
theorem fieldsHoldFloat_eq (fields : List (Text × Value)) :
    fieldsHoldFloat fields = fields.any fun field => field.2.holdsFloat := by
  induction fields with
  | nil => rfl
  | cons field rest inductionHypothesis => rw [fieldsHoldFloat, inductionHypothesis, List.any_cons]

/-- The items of a list without numbers with fractions have none. -/
theorem holdsFloat_of_mem_list {items : List Value} (noFloat : (list items).holdsFloat = false)
    {item : Value} (mem : item ∈ items) : item.holdsFloat = false := by
  rw [holdsFloat, itemsHoldFloat_eq] at noFloat
  simpa using List.any_eq_false.mp noFloat item mem

/-- The fields of an object without numbers with fractions have none. -/
theorem holdsFloat_of_mem_object {fields : List (Text × Value)}
    (noFloat : (object fields).holdsFloat = false) {field : Text × Value} (mem : field ∈ fields) :
    field.2.holdsFloat = false := by
  rw [holdsFloat, fieldsHoldFloat_eq] at noFloat
  simpa using List.any_eq_false.mp noFloat field mem

end Value

namespace Document.Literal

mutual

/-- Whether a literal has a line feed behind the digits of an integer. -/
def holdsFeed : Literal → Bool
  | .integer digits => digits.endsWith "\n"
  | .list items => itemsHoldFeed items
  | .object fields => fieldsHoldFeed fields
  | .variable _ | .float _ | .text _ _ | .boolean _ | .null | .enumValue _ => false

/-- Whether items have line feeds behind integers. -/
def itemsHoldFeed : List Literal → Bool
  | [] => false
  | item :: rest => holdsFeed item || itemsHoldFeed rest

/-- Whether fields have line feeds behind integers. -/
def fieldsHoldFeed : List (Text × Literal) → Bool
  | [] => false
  | (_, literal) :: rest => holdsFeed literal || fieldsHoldFeed rest

end

/-- Items hold a line feed if one of them does. -/
theorem itemsHoldFeed_eq (items : List Literal) : itemsHoldFeed items = items.any holdsFeed := by
  induction items with
  | nil => rfl
  | cons item rest inductionHypothesis => rw [itemsHoldFeed, inductionHypothesis, List.any_cons]

/-- So do fields. -/
theorem fieldsHoldFeed_eq (fields : List (Text × Literal)) :
    fieldsHoldFeed fields = fields.any fun field => field.2.holdsFeed := by
  induction fields with
  | nil => rfl
  | cons field rest inductionHypothesis => rw [fieldsHoldFeed, inductionHypothesis, List.any_cons]

end Document.Literal

namespace Coercion

/-- Digits do not begin with a sign. -/
theorem head?_ne_sign {digits : Text} (isDigits : IsDigits digits) :
    digits.head? ≠ some (ofChar '-') := by
  intro isSign
  have isDigit := isDigits.2 _ (List.mem_of_mem_head? isSign)
  revert isDigit
  decide

/-- The number that digits without a sign spell. -/
theorem integerValue?_of_isDigits {digits : Text} (isDigits : IsDigits digits) :
    integerValue? digits = if Json.integerWidthBound < digits.length then none
      else some (Text.digitsValue digits : Int) := by
  simp only [integerValue?, head?_ne_sign isDigits, if_false]

/-- The number that digits behind a sign spell. -/
theorem integerValue?_cons_sign (digits : Text) :
    integerValue? (ofChar '-' :: digits) = if Json.integerWidthBound < digits.length then none
      else some (-(Text.digitsValue digits : Int)) := by
  simp [integerValue?]

/-- A number that is not too long is read as it was written. -/
theorem integerValue?_ofInt {number : Int}
    (short : (Text.ofNat number.natAbs).length ≤ Json.integerWidthBound) :
    integerValue? (Text.ofInt number) = some number := by
  cases number with
  | ofNat magnitude =>
      have short : (Text.ofNat magnitude).length ≤ Json.integerWidthBound := short
      rw [Text.ofInt, integerValue?_of_isDigits (isDigits_ofNat magnitude),
        if_neg (Nat.not_lt_of_le short), Text.digitsValue_ofNat]
      rfl
  | negSucc predecessor =>
      have short : (Text.ofNat (predecessor + 1)).length ≤ Json.integerWidthBound := short
      have isSigned : Text.ofInt (.negSucc predecessor) =
          ofChar '-' :: Text.ofNat (predecessor + 1) := rfl
      rw [isSigned, integerValue?_cons_sign, if_neg (Nat.not_lt_of_le short),
        Text.digitsValue_ofNat]
      rfl

/-- The number that an integer spells is read as it was written, with no more digits. -/
theorem integerValue?_ofInt_of_spelled {digits : Text} (isInteger : IsInteger digits)
    {number : Int} (given : integerValue? digits = some number) :
    integerValue? (Text.ofInt number) = some number := by
  obtain ⟨sign, whole, rfl, isSign, isDigits⟩ := isInteger
  obtain ⟨short, sameMagnitude⟩ : whole.length ≤ Json.integerWidthBound ∧
      number.natAbs = Text.digitsValue whole := by
    rcases isSign with rfl | rfl
    · rw [List.nil_append, integerValue?_of_isDigits isDigits] at given
      split at given
      · cases given
      · next short =>
          cases given
          exact ⟨Nat.le_of_not_lt short, Int.natAbs_natCast _⟩
    · rw [List.singleton_append, integerValue?_cons_sign] at given
      split at given
      · cases given
      · next short =>
          cases given
          exact ⟨Nat.le_of_not_lt short, (Int.natAbs_neg _).trans (Int.natAbs_natCast _)⟩
  refine integerValue?_ofInt ?_
  rw [sameMagnitude]
  exact (Text.length_ofNat_le isDigits).trans short

/-- Whether a literal has no parts and is neither null nor a variable. -/
def isSimple : Literal → Bool
  | .integer _ | .float _ | .text _ _ | .boolean _ | .enumValue _ => true
  | .variable _ | .null | .list _ | .object _ => false

/-- A literal without parts is coerced for the name in its type. -/
theorem coerce_of_isSimple {ε : Type} {types : InputTypes ε} {type : TypeReference}
    {literal : Literal} (simple : isSimple literal = true) (isSingle : listDepth type = 0) :
    coerce types literal type = leafValue types type.base literal := by
  have unwrapped : ∀ result : Except ε (Option Value),
      (result.map fun value => value.map (wrap 0)) = result := by
    intro result
    cases result with
    | error fault => rfl
    | ok value => cases value <;> rfl
  cases literal with
  | integer | float | text | boolean | enumValue =>
      simp only [coerce]
      rw [isSingle, unwrapped]
  | «variable» | null | list | object => cases simple


section Scalars

variable {name : Text} {literal : Literal}

/-- A truth of a scalar type is what it is written as. -/
theorem scalarValue_boolean {truth : Bool}
    (given : scalarValue name literal = some (.boolean truth)) :
    scalarValue name (.boolean truth) = some (.boolean truth) := by
  unfold scalarValue at given ⊢
  split_ifs at given ⊢ <;> first | rfl | (cases literal <;> simp at given)

/-- A number of a scalar type is what it is written as. -/
theorem scalarValue_integer (spelled : literal.IsSpelled) {number : Int}
    (given : scalarValue name literal = some (.integer number)) :
    scalarValue name (.integer (Text.ofInt number)) = some (.integer number) := by
  have spells : ∀ {digits}, literal = .integer digits → integerValue? digits = some number →
      integerValue? (Text.ofInt number) = some number := by
    rintro digits rfl isNumber
    cases spelled with
    | integer isInteger => exact integerValue?_ofInt_of_spelled isInteger isNumber
  unfold scalarValue at given ⊢
  split_ifs at given ⊢ with isInt isFloat isString isBoolean isIdentifier
  · cases literal with
    | integer digits =>
        obtain ⟨other, isWord, same⟩ := Option.map_eq_some_iff.mp given
        cases same
        obtain ⟨isNumber, isWord⟩ := Option.filter_eq_some_iff.mp isWord
        simp [spells rfl isNumber, isWord]
    | _ => cases given
  · cases literal <;> cases given
  · cases literal <;> cases given
  · cases literal <;> cases given
  · cases literal <;> cases given
  · cases literal with
    | integer digits =>
        simp only [untyped] at given ⊢
        cases isNumber : integerValue? digits with
        | none =>
            rw [isNumber] at given
            cases given
        | some other =>
            rw [isNumber] at given
            cases given
            rw [spells rfl isNumber]
    | _ => cases given

/-- A text of a scalar type is what it is written as. -/
theorem scalarValue_text {content : Text}
    (given : scalarValue name literal = some (.text content)) :
    scalarValue name (.text content false) = some (.text content) ∧
      (name = "ID" → scalarValue name (.integer content) = some (.text content)) := by
  unfold scalarValue at given ⊢
  split_ifs at given ⊢ with isInt isFloat isString isBoolean isIdentifier
  · cases literal with
    | integer digits =>
        obtain ⟨other, -, same⟩ := Option.map_eq_some_iff.mp given
        cases same
    | _ => cases given
  · cases literal <;> cases given
  · exact ⟨rfl, fun isIdentifier => absurd (isString.symm.trans isIdentifier) (by decide)⟩
  · cases literal <;> cases given
  · exact ⟨rfl, fun _ => rfl⟩
  · exact ⟨rfl, fun isIdentifier' => absurd isIdentifier' isIdentifier⟩

/-- Only null is null of a scalar type, and nothing of one is a variable without a value. -/
theorem scalarValue_ne (notNull : literal ≠ .null) :
    scalarValue name literal ≠ some .null ∧ scalarValue name literal ≠ some .unbound := by
  unfold scalarValue
  split_ifs
  · cases literal with
    | integer digits => cases integerValue? digits <;> simp
    | _ => simp
  · cases literal <;> simp
  · cases literal <;> simp
  · cases literal <;> simp
  · cases literal <;> simp
  · constructor
    · cases literal <;> simp [untyped] at notNull ⊢
      next digits => cases integerValue? digits <;> simp
    · split <;> simp_all

end Scalars

/-- A value of a scalar type is written as a literal that is read as the value. -/
theorem scalarValue_scalarLiteral {name : Text} {literal : Literal} (spelled : literal.IsSpelled)
    (notNull : literal ≠ .null) {value : Value} (given : scalarValue name literal = some value)
    (noFloat : value.holdsFloat = false) {literal? : Option Literal}
    (written : scalarLiteral name value = .ok literal?)
    (noFeed : ∀ literal ∈ literal?, literal.holdsFeed = false) :
    ∃ literal, literal? = some literal ∧ isSimple literal.reread = true ∧
      scalarValue name literal.reread = some value := by
  cases value with
  | boolean truth =>
      cases written
      exact ⟨_, rfl, rfl, scalarValue_boolean given⟩
  | integer number =>
      cases written
      refine ⟨_, rfl, rfl, ?_⟩
      rw [Literal.reread, withoutFeed_of_isInteger (isInteger_ofInt number)]
      exact scalarValue_integer spelled given
  | text content =>
      obtain ⟨isText, isIdentifier⟩ := scalarValue_text given
      cases written
      refine ⟨_, rfl, ?_⟩
      split
      · next isInteger =>
          rw [if_pos isInteger] at noFeed
          rw [Bool.and_eq_true, decide_eq_true_eq] at isInteger
          have same : withoutFeed content = content := by
            rw [withoutFeed, if_neg]
            simpa [Literal.holdsFeed] using noFeed
          rw [Literal.reread, same]
          exact ⟨rfl, isIdentifier isInteger.1⟩
      · exact ⟨rfl, isText⟩
  | null => exact absurd given (scalarValue_ne notNull).1
  | unbound => exact absurd given (scalarValue_ne notNull).2
  | float number => cases noFloat
  | list items => cases written
  | object fields => cases written

end Coercion

namespace Schema

/-- A value of a scalar type is written as values of that type are. -/
theorem defaultLiteral_of_scalar {schema : Schema} {type : TypeReference}
    (isSingle : listDepth type = 0) (isScalar : schema.kind? type.base = some .scalar)
    {value : Value} (notNull : value ≠ .null) (notUnbound : value ≠ .unbound) :
    schema.defaultLiteral value type = scalarLiteral type.base value := by
  have leaf : schema.leafLiteral type.base value = scalarLiteral type.base value := by
    unfold leafLiteral
    rw [isScalar]
  cases value with
  | null => exact absurd rfl notNull
  | unbound => exact absurd rfl notUnbound
  | list items =>
      simp only [defaultLiteral]
      split
      · next item isList => exact absurd isList (nullable_ne_list isSingle)
      · rw [type.base_nullable, leaf]
  | object fields =>
      simp only [defaultLiteral, isScalar]
      exact leaf
  | boolean | integer | float | text =>
      simp only [defaultLiteral]
      exact leaf

end Schema

end SchemaOrder
