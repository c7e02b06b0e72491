import SchemaOrder.Proofs.Document.Cutting

/-!
# Numbers in documents

A text that has the shape of a number is cut off as one token where something stands behind it
that cannot go on with it. A number with a zero that is superfluous is a fault.
-/

namespace SchemaOrder.Document

open CodePoint (ofChar)

/-- Digits, one or more. -/
def IsDigits (text : Text) : Prop :=
  text ≠ [] ∧ ∀ codePoint ∈ text, codePoint.isDigit = true

/-- A sign, or none. -/
def IsSign (text : Text) : Prop :=
  text = [] ∨ text = [ofChar '-']

/-- A fraction, or none. -/
def IsFraction (text : Text) : Prop :=
  text = [] ∨ ∃ digits, text = ofChar '.' :: digits ∧ IsDigits digits

/-- An exponent with a sign, or none. -/
def IsExponent (text : Text) : Prop :=
  text = [] ∨ ∃ sign digits, text = ofChar 'e' :: sign :: digits ∧
    (sign = ofChar '+' ∨ sign = ofChar '-') ∧ IsDigits digits

/-- A text that has the shape of a number. It may still have a zero that is superfluous. -/
def IsNumber (text : Text) : Prop :=
  ∃ sign whole fraction exponent, text = sign ++ whole ++ fraction ++ exponent ∧ IsSign sign ∧
    IsDigits whole ∧ IsFraction fraction ∧ IsExponent exponent

/-- The token that a number is: without a fraction and without an exponent it is an integer. -/
def numberKind (text : Text) : TokenKind :=
  if text.any fun codePoint => codePoint = ofChar '.' || codePoint = ofChar 'e' then .float text
  else .integer text

/-- What does not begin with a digit ends digits. -/
def NoDigit (rest : Text) : Prop :=
  ∀ codePoint ∈ rest.head?, codePoint.isDigit = false

/-- A digit goes on with a name. -/
theorem Apart.noDigit {rest : Text} (apart : Apart rest) : NoDigit rest := by
  intro codePoint mem
  have notName := (apart codePoint mem).1
  simp only [CodePoint.isNameContinue, Bool.or_eq_false_iff] at notName
  exact notName.2

/-- Digits end where an exponent begins. -/
theorem IsExponent.noDigit {exponent rest : Text} (isExponent : IsExponent exponent)
    (noDigit : NoDigit rest) : NoDigit (exponent ++ rest) := by
  rcases isExponent with rfl | ⟨sign, digits, rfl, -⟩
  · exact noDigit
  · rintro codePoint ⟨⟩
    rfl

/-- They end where a fraction begins as well. -/
theorem IsFraction.noDigit {fraction rest : Text} (isFraction : IsFraction fraction)
    (noDigit : NoDigit rest) : NoDigit (fraction ++ rest) := by
  rcases isFraction with rfl | ⟨digits, rfl, -⟩
  · exact noDigit
  · rintro codePoint ⟨⟩
    rfl

/-- Digits are read up to where something else stands. -/
theorem readDigits_eq {digits rest : Text} (isDigits : IsDigits digits) (noDigit : NoDigit rest)
    (position : Nat) :
    readDigits ⟨position, digits ++ rest⟩ = .ok ⟨position + digits.length, rest⟩ := by
  obtain ⟨nonempty, areDigits⟩ := isDigits
  obtain ⟨first, others, rfl⟩ := List.exists_cons_of_ne_nil nonempty
  have run : (first :: others ++ rest).takeWhile CodePoint.isDigit = first :: others := by
    rw [List.takeWhile_append_of_pos areDigits]
    cases rest with
    | nil => simp
    | cons head tail => simp [noDigit head rfl]
  have isDigit := areDigits first (by simp)
  rw [List.cons_append] at run ⊢
  simp [readDigits, isDigit, Cursor.skip, Cursor.advance, run]

/-- The digits before a decimal point are read, unless a zero stands in front of others. -/
theorem readWhole_cases {digits rest : Text} (isDigits : IsDigits digits) (noDigit : NoDigit rest)
    (position : Nat) :
    readWhole ⟨position, digits ++ rest⟩ = .ok ⟨position + digits.length, rest⟩ ∨
      ∃ fault, readWhole ⟨position, digits ++ rest⟩ = .error fault := by
  by_cases zero : (⟨position, digits ++ rest⟩ : Cursor).startsWith '0' = true
  · obtain ⟨nonempty, areDigits⟩ := isDigits
    obtain ⟨first, others, rfl⟩ := List.exists_cons_of_ne_nil nonempty
    cases others with
    | nil =>
        left
        rw [readWhole, if_pos zero]
        cases rest with
        | nil => simp [Cursor.advance]
        | cons head tail => simp [Cursor.advance, noDigit head rfl]
    | cons second others =>
        right
        have isDigit := areDigits second (by simp)
        refine ⟨⟨.digitAfterZero second, position + 1⟩, ?_⟩
        rw [readWhole, if_pos zero]
        simp [Cursor.advance, isDigit]
  · left
    simp only [readWhole, zero, Bool.false_eq_true, if_false]
    exact readDigits_eq isDigits noDigit position

/-- What begins neither a fraction nor an exponent. -/
theorem startsWith_of_ne {rest : Text} {character : Char}
    (differ : ∀ codePoint ∈ rest.head?, codePoint ≠ ofChar character) (position : Nat) :
    (⟨position, rest⟩ : Cursor).startsWith character = false := by
  cases rest with
  | nil => rfl
  | cons head tail => simp [Cursor.startsWith, differ head rfl]

/-- What stands apart does not begin with what goes on with a name. -/
theorem Apart.ne {rest : Text} (apart : Apart rest) {other : CodePoint}
    (goesOn : other.isNameContinue = true) : ∀ codePoint ∈ rest.head?, codePoint ≠ other := by
  rintro codePoint mem rfl
  rw [(apart codePoint mem).1] at goesOn
  cases goesOn

/-- The place behind a fraction is reached from the place in front of it. -/
def PassesFraction (whole fraction : Cursor) : Prop :=
  (whole.startsWith '.' = false ∧ whole = fraction) ∨
    whole.startsWith '.' = true ∧ readDigits (whole.advance 1) = .ok fraction

/-- The place behind an exponent is reached from the place in front of it. -/
def PassesExponent (fraction finish : Cursor) : Prop :=
  ((fraction.startsWith 'e' || fraction.startsWith 'E') = false ∧ fraction = finish) ∨
    (fraction.startsWith 'e' || fraction.startsWith 'E') = true ∧ readExponent fraction = .ok finish

/-- A fraction is passed by, or there is none. -/
theorem passesFraction {fraction rest : Text} (isFraction : IsFraction fraction)
    (noDigit : NoDigit rest) (noPoint : ∀ codePoint ∈ rest.head?, codePoint ≠ ofChar '.')
    (position : Nat) :
    PassesFraction ⟨position, fraction ++ rest⟩ ⟨position + fraction.length, rest⟩ := by
  rcases isFraction with rfl | ⟨digits, rfl, isDigits⟩
  · exact .inl ⟨startsWith_of_ne noPoint position, rfl⟩
  · refine .inr ⟨by simp [Cursor.startsWith], ?_⟩
    rw [List.length_cons, Nat.add_comm digits.length, ← Nat.add_assoc]
    exact readDigits_eq isDigits noDigit (position + 1)

/-- An exponent is passed by, or there is none. -/
theorem passesExponent {exponent rest : Text} (isExponent : IsExponent exponent)
    (apart : Apart rest) (position : Nat) :
    PassesExponent ⟨position, exponent ++ rest⟩ ⟨position + exponent.length, rest⟩ := by
  rcases isExponent with rfl | ⟨sign, digits, rfl, isSign, isDigits⟩
  · refine .inl ⟨?_, rfl⟩
    rw [List.nil_append, startsWith_of_ne (apart.ne (by decide)),
      startsWith_of_ne (apart.ne (by decide))]
    rfl
  · refine .inr ⟨by simp [Cursor.startsWith], ?_⟩
    have signed : ((⟨position + 1, sign :: (digits ++ rest)⟩ : Cursor).startsWith '+' ||
        (⟨position + 1, sign :: (digits ++ rest)⟩ : Cursor).startsWith '-') = true := by
      simpa [Cursor.startsWith] using isSign
    have lengths : position + (digits.length + 1 + 1) = position + 2 + digits.length := by omega
    simp only [readExponent, Cursor.advance, List.cons_append, List.drop_succ_cons,
      List.drop_zero, signed, if_true, List.length_cons, lengths]
    exact readDigits_eq isDigits apart.noDigit (position + 2)

/-- What stands apart from a number does not go on with it. -/
theorem checkEnd_of_apart {finish : Cursor} (apart : Apart finish.rest) (read : Token × Cursor) :
    (match finish.rest.head? with
      | some codePoint =>
        if codePoint.isNameStart || codePoint = ofChar '.' then
          .error ⟨.notDigit (some codePoint), finish.position⟩
        else pure read
      | none => pure read : Except ReadFault (Token × Cursor)) = .ok read := by
  cases isHead : finish.rest.head? with
  | none => rfl
  | some head =>
      obtain ⟨notName, notPoint, -⟩ := apart head isHead
      simp only [CodePoint.isNameContinue, Bool.or_eq_false_iff] at notName
      simp [notName.1, notPoint, pure, Except.pure]

/-- A number whose parts are read one after the other. -/
theorem readNumber_of {cursor whole fraction finish : Cursor}
    (read : readWhole (if cursor.startsWith '-' then cursor.advance 1 else cursor) = .ok whole)
    (passesFraction : PassesFraction whole fraction)
    (passesExponent : PassesExponent fraction finish) (apart : Apart finish.rest) :
    readNumber cursor =
      .ok (⟨if finish.position = whole.position then
          .integer (cursor.rest.take (finish.position - cursor.position))
        else .float (cursor.rest.take (finish.position - cursor.position)), cursor.position⟩,
        finish) := by
  unfold readNumber
  rcases passesFraction with ⟨noFraction, rfl⟩ | ⟨hasFraction, readFraction⟩ <;>
    rcases passesExponent with ⟨noExponent, rfl⟩ | ⟨hasExponent, readExponent⟩ <;>
    simp only [bind, Except.bind, pure, Except.pure, *, Bool.false_eq_true, if_false, if_true] <;>
    exact checkEnd_of_apart apart _

/-- A number holds no carriage return. -/
theorem IsNumber.noReturn {text : Text} (isNumber : IsNumber text) : ofChar '\r' ∉ text := by
  have noDigits : ∀ {digits}, IsDigits digits → ofChar '\r' ∉ digits :=
    fun areDigits mem => absurd (areDigits.2 _ mem) (by decide)
  obtain ⟨sign, whole, fraction, exponent, rfl, isSign, isWhole, isFraction, isExponent⟩ :=
    isNumber
  simp only [List.mem_append, not_or]
  refine ⟨⟨⟨?_, noDigits isWhole⟩, ?_⟩, ?_⟩
  · rcases isSign with rfl | rfl <;> decide
  · rcases isFraction with rfl | ⟨digits, rfl, areDigits⟩
    · decide
    · exact List.not_mem_cons_of_ne_of_not_mem (by decide) (noDigits areDigits)
  · rcases isExponent with rfl | ⟨sign, digits, rfl, rfl | rfl, areDigits⟩
    · decide
    all_goals
      exact List.not_mem_cons_of_ne_of_not_mem (by decide)
        (List.not_mem_cons_of_ne_of_not_mem (by decide) (noDigits areDigits))

/-- Digits and signs are no part of a fraction or an exponent. -/
theorem numberKind_eq {sign whole fraction exponent : Text} (isSign : IsSign sign)
    (isDigits : IsDigits whole) (isFraction : IsFraction fraction)
    (isExponent : IsExponent exponent) :
    numberKind (sign ++ whole ++ fraction ++ exponent) =
      if fraction = [] ∧ exponent = [] then .integer (sign ++ whole ++ fraction ++ exponent)
      else .float (sign ++ whole ++ fraction ++ exponent) := by
  have plain : (sign ++ whole).any
      (fun codePoint => codePoint = ofChar '.' || codePoint = ofChar 'e') = false := by
    refine List.any_eq_false.mpr fun codePoint mem => ?_
    rcases List.mem_append.mp mem with inSign | inWhole
    · rcases isSign with rfl | rfl
      · cases inSign
      · obtain rfl := List.mem_singleton.mp inSign
        decide
    · have isDigit := isDigits.2 codePoint inWhole
      have notPoint : codePoint ≠ ofChar '.' := by
        rintro rfl
        cases isDigit
      have notExponent : codePoint ≠ ofChar 'e' := by
        rintro rfl
        cases isDigit
      simp [notPoint, notExponent]
  rw [numberKind, List.append_assoc, List.any_append, plain, Bool.false_or]
  rcases isFraction with rfl | ⟨digits, rfl, -⟩
  · rcases isExponent with rfl | ⟨_, digits, rfl, -⟩
    · simp
    · simp
  · simp

/-- A sign is passed over where one stands. -/
theorem skipSign_eq {sign whole rest : Text} (isSign : IsSign sign) (isDigits : IsDigits whole)
    (position : Nat) :
    (if (⟨position, sign ++ (whole ++ rest)⟩ : Cursor).startsWith '-' then
        (⟨position, sign ++ (whole ++ rest)⟩ : Cursor).advance 1
      else ⟨position, sign ++ (whole ++ rest)⟩) = ⟨position + sign.length, whole ++ rest⟩ := by
  rcases isSign with rfl | rfl
  · obtain ⟨nonempty, areDigits⟩ := isDigits
    obtain ⟨first, others, rfl⟩ := List.exists_cons_of_ne_nil nonempty
    have differ : first ≠ ofChar '-' := by
      rintro rfl
      exact absurd (areDigits (ofChar '-') (by simp)) (by decide)
    simp [Cursor.startsWith, differ]
  · simp [Cursor.startsWith, Cursor.advance]

/-- A number is read up to where something else stands, unless it has a zero that is
superfluous. -/
theorem readNumber_cases {text rest : Text} (isNumber : IsNumber text) (apart : Apart rest)
    (position : Nat) :
    readNumber ⟨position, text ++ rest⟩ =
        .ok (⟨numberKind text, position⟩, ⟨position + text.length, rest⟩) ∨
      ∃ fault, readNumber ⟨position, text ++ rest⟩ = .error fault := by
  obtain ⟨sign, whole, fraction, exponent, isText, isSign, isDigits, isFraction, isExponent⟩ :=
    isNumber
  have kind := numberKind_eq isSign isDigits isFraction isExponent
  rw [← isText] at kind
  have noDigit : NoDigit (exponent ++ rest) := isExponent.noDigit apart.noDigit
  have noPoint : ∀ codePoint ∈ (exponent ++ rest).head?, codePoint ≠ ofChar '.' := by
    rcases isExponent with rfl | ⟨_, digits, rfl, -⟩
    · exact fun codePoint mem => (apart codePoint mem).2.1
    · rintro codePoint ⟨⟩
      decide
  have wholeText : text ++ rest = sign ++ (whole ++ (fraction ++ (exponent ++ rest))) := by
    simp [isText]
  have length : text.length = sign.length + whole.length + fraction.length + exponent.length := by
    simp only [isText, List.length_append]
  rcases readWhole_cases isDigits (isFraction.noDigit noDigit) (position + sign.length) with
    read | ⟨fault, read⟩
  · left
    rw [← skipSign_eq isSign isDigits, ← wholeText] at read
    have taken : (text ++ rest).take (position + text.length - position) = text := by simp
    have ends : position + sign.length + whole.length + fraction.length + exponent.length =
        position + text.length := by omega
    have same : position + text.length = position + sign.length + whole.length ↔
        fraction = [] ∧ exponent = [] := by
      rw [← List.length_eq_zero_iff, ← List.length_eq_zero_iff]
      omega
    rw [readNumber_of read (passesFraction isFraction noDigit noPoint _)
      (passesExponent isExponent apart _) apart, ends]
    simp only [taken, same, kind]
  · right
    exact ⟨fault, by rw [wholeText, readNumber, skipSign_eq isSign isDigits, read]; rfl⟩

/-- A number is cut off where something stands that cannot go on with it. -/
theorem Cuts.number {text rest : Text} (isNumber : IsNumber text) (apart : Apart rest) :
    Cuts text rest [numberKind text] := by
  have begins : ∃ first others, text = first :: others ∧
      (first.isDigit = true ∨ first = ofChar '-') := by
    obtain ⟨sign, whole, fraction, exponent, rfl, rfl | rfl, ⟨nonempty, areDigits⟩, -⟩ := isNumber
    · obtain ⟨first, others, rfl⟩ := List.exists_cons_of_ne_nil nonempty
      exact ⟨_, _, rfl, .inl (areDigits first (by simp))⟩
    · exact ⟨_, _, rfl, .inr rfl⟩
  obtain ⟨first, others, rfl, begins⟩ := begins
  have values : first.value = 45 ∨ 48 ≤ first.value ∧ first.value ≤ 57 := by
    rcases begins with isDigit | rfl
    · right
      simpa [CodePoint.isDigit, CodePoint.isWithin] using isDigit
    · exact .inl rfl
  have differ : ∀ other : CodePoint, (other.value < 45 ∨ 57 < other.value) → first ≠ other := by
    rintro other outside rfl
    omega
  have notEnd : numberKind (first :: others) ≠ .endOfDocument := by
    unfold numberKind
    split <;> simp
  refine token notEnd ?_ (differ _ (by decide)) fun position => ?_
  · simp [isIgnored, isLineEnd, CodePoint.isBlank]
    omega
  · have notQuote : first ≠ ofChar '"' := differ _ (by decide)
    have noBlock : Cursor.startsWithText ⟨position, first :: (others ++ rest)⟩ "\"\"\"" = false :=
      startsWithText_cons notQuote
    have isNumeric : (first.isDigit || decide (first = ofChar '-')) = true := by
      simpa using begins
    have read : readToken ⟨position, first :: others ++ rest⟩ =
        readNumber ⟨position, first :: others ++ rest⟩ := by
      simp only [List.cons_append, readToken, noBlock, notQuote, isNumeric, Bool.false_eq_true,
        if_false, if_true]
    rw [read]
    exact (readNumber_cases isNumber apart position).imp_left fun given => ⟨_, given⟩

end SchemaOrder.Document
