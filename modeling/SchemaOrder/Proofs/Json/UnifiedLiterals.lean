import SchemaOrder.Json.Reader
import SchemaOrder.Proofs.Document.LineEnds
import SchemaOrder.Proofs.Json.Rereading
import SchemaOrder.Proofs.Parallel

/-!
# JSON literals with the same line ends

A number or a text of JSON is read at two cursors that have the same in front of them but for its
line ends as the same value, or is refused at both for the same kind of reason. No line end stands
in what is read: numbers have none, and in a text it is refused. Escapes are looked at by their
digits, so that a pair of surrogates is found at both cursors or at neither.
-/

namespace SchemaOrder.Json

open CodePoint (ofChar)
open Cursor (Unifies)
open Document (isLineEnd)
open Outcome (Parallel)
open Text (WithinLine isLineEnd_of_admitted withinLine_take_add withinLine_take_one)

/-- Faults of one kind. -/
inductive ReadFault.SameKind : ReadFault → ReadFault → Prop where
  | malformed (cause cause' : Malformation) (position position' : Nat) :
      SameKind (.malformed cause position) (.malformed cause' position')
  | integerTooLong (digits digits' : Nat) :
      SameKind (.integerTooLong digits) (.integerTooLong digits')

/-- A fault is of its own kind. -/
theorem ReadFault.SameKind.refl (fault : ReadFault) : fault.SameKind fault := by
  cases fault with
  | malformed cause position => exact .malformed _ _ _ _
  | integerTooLong digits => exact .integerTooLong _ _

open ReadFault (SameKind)

section Numbers

variable {left right : Text}

/-- The sign in front of an exponent: whether there is one, whether it is that of a negative number,
and what stands behind it. -/
def exponentSign (others : Text) : Bool × Bool × Text :=
  match others with
  | sign :: digits =>
    if sign = ofChar '-' then (true, true, digits)
    else if sign = ofChar '+' then (true, false, digits)
    else (false, false, others)
  | [] => (false, false, [])

/-- An exponent is a letter, a sign that may be left out, and at least one digit. -/
theorem exponentParts?_cons (letter : CodePoint) (others : Text) :
    exponentParts? (letter :: others) =
      if letter.lower = ofChar 'e' then
        let digits := (exponentSign others).2.2.takeWhile CodePoint.isDigit
        if digits.isEmpty then none
        else
          let size : Int := Text.digitsValue digits
          some (if (exponentSign others).2.1 then -size else size,
            1 + (if (exponentSign others).1 then 1 else 0) + digits.length)
      else none :=
  rfl

/-- The same sign stands in front of both exponents, and it ends no line. -/
theorem exponentSign_unifies (unifies : left.Unifies right) :
    (exponentSign left).1 = (exponentSign right).1 ∧
      (exponentSign left).2.1 = (exponentSign right).2.1 ∧
      (exponentSign left).2.2.Unifies (exponentSign right).2.2 ∧
      (exponentSign left).2.2 = left.drop (if (exponentSign left).1 then 1 else 0) ∧
      WithinLine (left.take (if (exponentSign left).1 then 1 else 0)) := by
  have noSign {codePoint : CodePoint} (isEnd : isLineEnd codePoint = true) (others : Text) :
      exponentSign (codePoint :: others) = (false, false, codePoint :: others) := by
    obtain rfl | rfl := Text.isLineEnd_iff.mp isEnd <;> rfl
  cases unifies with
  | nil => exact ⟨rfl, rfl, .nil, rfl, nofun⟩
  | lineEnd isEnd rest =>
      rw [noSign isEnd, noSign rfl]
      exact ⟨rfl, rfl, .lineEnd isEnd rest, rfl, nofun⟩
  | @plain first others others' notEnd rest =>
      have within : WithinLine ((first :: others).take 1) := List.forall_mem_singleton.mpr notEnd
      simp only [exponentSign]
      split
      · exact ⟨rfl, rfl, rest, rfl, within⟩
      split
      · exact ⟨rfl, rfl, rest, rfl, within⟩
      · exact ⟨rfl, rfl, .plain notEnd rest, rfl, nofun⟩

/-- Digits at the beginning of a text hold no line end. -/
theorem withinLine_take_digits (text : Text) :
    WithinLine (text.take (text.takeWhile CodePoint.isDigit).length) := by
  have isFront := List.prefix_iff_eq_take.mp (List.takeWhile_prefix CodePoint.isDigit (l := text))
  rw [← isFront]
  exact fun codePoint mem => isLineEnd_of_admitted CodePoint.isDigit rfl rfl codePoint
    (List.mem_takeWhile_imp mem)

/-- The same exponent begins both texts, and it holds no line end. -/
theorem exponentParts?_unifies (unifies : left.Unifies right) :
    exponentParts? left = exponentParts? right ∧
      ∀ parts, exponentParts? left = some parts → WithinLine (left.take parts.2) := by
  have none {codePoint : CodePoint} (isEnd : isLineEnd codePoint = true) (others : Text) :
      exponentParts? (codePoint :: others) = none := by
    obtain rfl | rfl := Text.isLineEnd_iff.mp isEnd <;> rfl
  cases unifies with
  | nil => exact ⟨rfl, nofun⟩
  | lineEnd isEnd rest =>
      rw [none isEnd, none rfl]
      exact ⟨rfl, nofun⟩
  | @plain letter others others' notEnd rest =>
      obtain ⟨sameSigned, sameSign, behind, isBehind, within⟩ := exponentSign_unifies rest
      have sameDigits := behind.takeWhile_eq (isLineEnd_of_admitted CodePoint.isDigit rfl rfl)
      rw [exponentParts?_cons, exponentParts?_cons, ← sameSigned, ← sameSign, ← sameDigits]
      refine ⟨rfl, ?_⟩
      rintro ⟨size, length⟩ given
      split at given
      · dsimp only at given
        split at given
        · cases given
        · obtain ⟨rfl, rfl⟩ := Prod.mk.inj (Option.some.inj given)
          have withinDigits := withinLine_take_digits (exponentSign others).2.2
          rw [isBehind] at withinDigits ⊢
          rw [Nat.add_assoc]
          exact withinLine_take_add (List.forall_mem_singleton.mpr notEnd)
            (withinLine_take_add within withinDigits)
      · cases given

/-- The whole digits of a number. -/
def wholeDigits (unsigned : Text) : Text :=
  let run := unsigned.takeWhile CodePoint.isDigit
  if run.head? = some (ofChar '0') then run.take 1 else run

/-- The digits behind the point of a number, where it has them. -/
def fractionDigits (behind : Text) : Option Text :=
  if behind.head? = some (ofChar '.') then
    let digits := (behind.drop 1).takeWhile CodePoint.isDigit
    if digits.isEmpty then none else some digits
  else none

/-- How much of a text the digits behind a point take. -/
def fractionLength : Option Text → Nat
  | some digits => digits.length + 1
  | none => 0

/-- How much of a text an exponent takes. -/
def exponentLength : Option (Int × Nat) → Nat
  | some (_, length) => length
  | none => 0

/-- The parts of a number, behind its sign. -/
def unsignedParts? (negative : Bool) (unsigned : Text) : Option NumberParts :=
  let whole := wholeDigits unsigned
  if whole.isEmpty then none
  else
    let behind := unsigned.drop whole.length
    let fraction := fractionDigits behind
    let exponent := exponentParts? (behind.drop (fractionLength fraction))
    some ⟨negative, whole, fraction, exponent.map (·.1),
      (if negative then 1 else 0) + whole.length + fractionLength fraction +
        exponentLength exponent⟩

/-- A number is read behind its sign, if it has one. -/
theorem numberParts?_eq (text : Text) :
    numberParts? text =
      if text.head? = some (ofChar '-') then unsignedParts? true (text.drop 1)
      else unsignedParts? false text := by
  unfold numberParts?
  by_cases negative : text.head? = some (ofChar '-')
  · simp only [negative, decide_true, if_true]
    rfl
  · simp only [negative, decide_false, if_false]
    rfl

/-- The same whole digits begin both texts, and they hold no line end. -/
theorem wholeDigits_unifies (unifies : left.Unifies right) :
    wholeDigits left = wholeDigits right ∧
      WithinLine (left.take (wholeDigits left).length) := by
  have sameRun := unifies.takeWhile_eq (isLineEnd_of_admitted CodePoint.isDigit rfl rfl)
  refine ⟨by rw [wholeDigits, wholeDigits, sameRun], ?_⟩
  have within := withinLine_take_digits left
  have short : (wholeDigits left).length ≤ (left.takeWhile CodePoint.isDigit).length := by
    unfold wholeDigits
    dsimp only
    split
    · exact List.length_take_le' 1 _
    · exact Nat.le_refl _
  intro codePoint mem
  refine within codePoint (List.take_subset_take_left left short mem)

/-- The same digits stand behind the point, and they hold no line end. -/
theorem fractionDigits_unifies (unifies : left.Unifies right) :
    fractionDigits left = fractionDigits right ∧
      WithinLine (left.take (fractionLength (fractionDigits left))) := by
  have samePoint := unifies.head?_eq_some_iff (rfl : isLineEnd (ofChar '.') = false)
  unfold fractionDigits
  by_cases isPoint : left.head? = some (ofChar '.')
  · have within := withinLine_take_one isPoint rfl
    have behind := (unifies.take_and_drop within).2
    have sameDigits := behind.takeWhile_eq (isLineEnd_of_admitted CodePoint.isDigit rfl rfl)
    rw [if_pos isPoint, if_pos (samePoint.mp isPoint), ← sameDigits]
    refine ⟨rfl, ?_⟩
    dsimp only
    split
    · exact List.forall_mem_nil _
    · rw [fractionLength, Nat.add_comm]
      exact withinLine_take_add within (withinLine_take_digits (left.drop 1))
  · rw [if_neg isPoint, if_neg (samePoint.not.mp isPoint)]
    exact ⟨rfl, List.forall_mem_nil _⟩

/-- The same number stands behind a sign, and it holds no line end. -/
theorem unsignedParts?_unifies (unifies : left.Unifies right) (negative : Bool) :
    unsignedParts? negative left = unsignedParts? negative right ∧
      ∀ parts, unsignedParts? negative left = some parts →
        ∃ length, parts.length = (if negative then 1 else 0) + length ∧
          WithinLine (left.take length) := by
  obtain ⟨sameWhole, withinWhole⟩ := wholeDigits_unifies unifies
  have atFraction := (unifies.take_and_drop withinWhole).2
  obtain ⟨sameFraction, withinFraction⟩ := fractionDigits_unifies atFraction
  have atExponent := (atFraction.take_and_drop withinFraction).2
  obtain ⟨sameExponent, withinExponent⟩ := exponentParts?_unifies atExponent
  unfold unsignedParts?
  rw [← sameWhole]
  dsimp only
  rw [← sameFraction, ← sameExponent]
  refine ⟨rfl, ?_⟩
  intro parts given
  split at given
  · cases given
  · obtain rfl := Option.some.inj given
    refine ⟨_, by rw [Nat.add_assoc, Nat.add_assoc], ?_⟩
    refine withinLine_take_add withinWhole (withinLine_take_add withinFraction ?_)
    generalize exponentParts? _ = exponent at withinExponent ⊢
    cases exponent with
    | none => exact List.forall_mem_nil _
    | some parts => exact withinExponent parts rfl

/-- The same number begins both texts, and it holds no line end. -/
theorem numberParts?_unifies (unifies : left.Unifies right) :
    numberParts? left = numberParts? right ∧
      ∀ parts, numberParts? left = some parts → WithinLine (left.take parts.length) := by
  have sameSign := unifies.head?_eq_some_iff (rfl : isLineEnd (ofChar '-') = false)
  rw [numberParts?_eq, numberParts?_eq]
  by_cases negative : left.head? = some (ofChar '-')
  · have within := withinLine_take_one negative rfl
    obtain ⟨same, each⟩ := unsignedParts?_unifies (unifies.take_and_drop within).2 true
    rw [if_pos negative, if_pos (sameSign.mp negative)]
    refine ⟨same, fun parts given => ?_⟩
    obtain ⟨length, isLength, withinNumber⟩ := each parts given
    exact isLength ▸ withinLine_take_add within withinNumber
  · obtain ⟨same, each⟩ := unsignedParts?_unifies unifies false
    rw [if_neg negative, if_neg (sameSign.not.mp negative)]
    refine ⟨same, fun parts given => ?_⟩
    obtain ⟨length, isLength, withinNumber⟩ := each parts given
    rw [isLength]
    simpa using withinNumber

/-- A number takes something off the text. -/
theorem length_pos_of_numberParts? {text : Text} {parts : NumberParts}
    (given : numberParts? text = some parts) : 0 < parts.length := by
  have unsigned : ∀ negative text, unsignedParts? negative text = some parts →
      0 < parts.length := by
    intro negative text given
    unfold unsignedParts? at given
    dsimp only at given
    split at given
    · cases given
    next nonempty =>
      obtain rfl := Option.some.inj given
      have positive := List.length_pos_iff.mpr (mt List.isEmpty_iff.mpr nonempty)
      dsimp only
      omega
  rw [numberParts?_eq] at given
  split at given <;> exact unsigned _ _ given

end Numbers

variable {left right : Cursor}

/-- The same was read, and both cursors have moved on and still have the same in front of them. -/
structure SameRead {α : Type} (left right : Cursor) (read read' : α × Cursor) : Prop where
  value : read.1 = read'.1
  behind : read.2.Unifies read'.2
  shorter : read.2.rest.length < left.rest.length
  shorter' : read'.2.rest.length < right.rest.length

/-- What is read in front of code points that end no line moves both cursors on. -/
theorem SameRead.advance {α : Type} (unifies : Unifies left right) {count : Nat}
    (positive : 0 < count) (nonempty : left.rest ≠ []) (within : WithinLine (left.rest.take count))
    (value : α) : SameRead left right (value, left.advance count) (value, right.advance count) := by
  have nonempty' : right.rest ≠ [] := by
    rw [← List.isEmpty_eq_false_iff, ← unifies.isEmpty_eq, List.isEmpty_eq_false_iff]
    exact nonempty
  have some := List.length_pos_iff.mpr nonempty
  have some' := List.length_pos_iff.mpr nonempty'
  refine ⟨rfl, (unifies.take_and_drop within).2, ?_, ?_⟩ <;>
    simp only [Cursor.advance, List.length_drop] <;> omega

/-- The same word or the same number is read at both cursors. -/
theorem readAtom_parallel (unifies : Unifies left right) :
    Parallel SameKind (SameRead left right) (readAtom left) (readAtom right) := by
  have within : ∀ word ∈ words, WithinLine word.1 := by decide
  have sameWord : words.find? (fun word => word.1.isPrefixOf left.rest) =
      words.find? fun word => word.1.isPrefixOf right.rest := by
    rw [← List.head?_filter, ← List.head?_filter]
    exact congrArg List.head? <|
      List.filter_congr fun word mem => unifies.isPrefixOf_eq (within word mem)
  obtain ⟨sameNumber, withinNumber⟩ := numberParts?_unifies unifies
  unfold readAtom
  rw [← sameWord, ← sameNumber]
  cases isWord : words.find? fun word => word.1.isPrefixOf left.rest with
  | some word =>
      obtain ⟨word, value⟩ := word
      have mem := List.mem_of_find?_eq_some isWord
      have starts : left.startsWithText word = true :=
        List.find?_some (p := fun word : Text × Json => word.1.isPrefixOf left.rest) isWord
      have taken := Unifies.take_of_startsWithText starts
      have nonempty : ∀ word ∈ words, word.1 ≠ [] := by decide
      refine .ok (.advance unifies (List.length_pos_iff.mpr (nonempty _ mem)) ?_ ?_ value)
      · intro empty
        rw [empty, List.take_nil] at taken
        exact nonempty _ mem taken.symm
      · rw [taken]
        exact within _ mem
  | none =>
      cases isNumber : numberParts? left.rest with
      | none => exact .error (.malformed _ _ _ _)
      | some parts =>
          refine (Parallel.refl SameKind.refl parts.value).map ?_
          rintro value _ rfl
          refine .advance unifies (length_pos_of_numberParts? isNumber) ?_
            (withinNumber parts isNumber) value
          rintro empty
          rw [empty] at isNumber
          cases isNumber

/-- More was read than was asked for. -/
theorem SameRead.earlier {α : Type} {next next' : Cursor} {read read' : α × Cursor}
    (same : SameRead next next' read read') (before : next.rest.length ≤ left.rest.length)
    (before' : next'.rest.length ≤ right.rest.length) : SameRead left right read read' :=
  ⟨same.value, same.behind, same.shorter.trans_le before, same.shorter'.trans_le before'⟩

section Texts

/-- The number that the digits of an escape spell, if something stands behind them. -/
def escaped? (digits : Text) : Option Nat :=
  if (digits.take 5).length < 5 then none else fourHexDigits? digits

/-- An escape has four digits, and something behind them. -/
theorem exists_of_escaped? {digits : Text} {value : Nat} (given : escaped? digits = some value) :
    ∃ four next others, digits = four ++ next :: others ∧ four.length = 4 ∧
      ∀ digit ∈ four, digit.hexDigit?.isSome = true := by
  unfold escaped? at given
  split at given
  · cases given
  next long =>
    match digits, long with
    | [], long | [_], long | [_, _], long | [_, _, _], long | [_, _, _, _], long =>
        simp at long
    | first :: second :: third :: fourth :: next :: others, _ =>
        refine ⟨[first, second, third, fourth], next, others, rfl, rfl, ?_⟩
        obtain ⟨a, isFirst, given⟩ := Option.bind_eq_some_iff.mp given
        obtain ⟨b, isSecond, given⟩ := Option.bind_eq_some_iff.mp given
        obtain ⟨c, isThird, given⟩ := Option.bind_eq_some_iff.mp given
        obtain ⟨d, isFourth, given⟩ := Option.bind_eq_some_iff.mp given
        simp [isFirst, isSecond, isThird, isFourth]

/-- No line ends within the digits of an escape. -/
theorem withinLine_of_escaped? {digits : Text} {value : Nat}
    (given : escaped? digits = some value) : WithinLine (digits.take 4) := by
  obtain ⟨four, next, others, rfl, isFour, areDigits⟩ := exists_of_escaped? given
  rw [← isFour, List.take_left]
  exact fun digit mem => isLineEnd_of_admitted (fun codePoint => codePoint.hexDigit?.isSome) rfl
    rfl digit (areDigits digit mem)

/-- The digits of an escape are none of the marks that a text is closed by. -/
theorem insideLength_escape {digits : Text} {value : Nat} (given : escaped? digits = some value) :
    insideLength (ofChar '\\' :: ofChar 'u' :: digits) = insideLength (digits.drop 4) + 6 := by
  obtain ⟨four, next, others, rfl, isFour, areDigits⟩ := exists_of_escaped? given
  have noMarks : ∀ digit ∈ four, digit ≠ ofChar '"' ∧ digit ≠ ofChar '\\' := by
    intro digit mem
    have isDigit := areDigits digit mem
    constructor <;>
      · rintro rfl
        cases isDigit
  have quoteOther : ofChar '\\' ≠ ofChar '"' := by decide
  rw [← isFour, List.drop_left, insideLength, if_neg quoteOther, if_pos rfl,
    insideLength_append noMarks (List.cons_ne_nil _ _), isFour]
  omega

/-- The four digits are all that an escape depends on. -/
theorem fourHexDigits?_take (text : Text) : fourHexDigits? text = fourHexDigits? (text.take 4) := by
  match text with
  | [] | [_] | [_, _] | [_, _, _] | _ :: _ :: _ :: _ :: _ => rfl

/-- The same escape begins both texts. -/
theorem escaped?_unifies {left right : Text} (unifies : left.Unifies right) :
    escaped? left = escaped? right := by
  by_cases within : WithinLine (left.take 4)
  · obtain ⟨sameFour, behind⟩ := unifies.take_and_drop within
    have short (text : Text) : (text.take 5).length < 5 ↔ (text.drop 4).isEmpty = true := by
      rw [List.isEmpty_iff, List.drop_eq_nil_iff, List.length_take]
      omega
    unfold escaped?
    simp only [short, behind.isEmpty_eq]
    rw [fourHexDigits?_take, sameFour, ← fourHexDigits?_take]
  · have none {text : Text} (notWithin : ¬ WithinLine (text.take 4)) : escaped? text = none := by
      cases given : escaped? text with
      | none => rfl
      | some value => exact absurd (withinLine_of_escaped? given) notWithin
    rw [none within, none ((unifies.withinLine_take_iff 4).not.mp within)]

/-- What an escape at the beginning of a text adds to a high surrogate in front of it: nothing where
there is no such escape or it spells something else. A broken escape is none at all. -/
def lowUnit? (rest : Text) : Option (Option Nat) :=
  match rest with
  | backslash :: letter :: digits =>
    if backslash = ofChar '\\' ∧ letter = ofChar 'u' then
      (escaped? digits).map fun value =>
        if (CodePoint.ofNat value).isLowSurrogate then some value else none
    else some none
  | _ => some none

/-- The same is added in both texts. -/
theorem lowUnit?_unifies {left right : Text} (unifies : left.Unifies right) :
    lowUnit? left = lowUnit? right := by
  have nothing {codePoint : CodePoint} (isEnd : isLineEnd codePoint = true) :
      codePoint ≠ ofChar '\\' ∧ codePoint ≠ ofChar 'u' := by
    obtain rfl | rfl := Text.isLineEnd_iff.mp isEnd <;> decide
  have noBackslash {codePoint : CodePoint} (isEnd : isLineEnd codePoint = true) (others : Text) :
      lowUnit? (codePoint :: others) = some none := by
    cases others with
    | nil => rfl
    | cons second others => exact if_neg fun both => (nothing isEnd).1 both.1
  have noLetter {codePoint : CodePoint} (isEnd : isLineEnd codePoint = true) (first : CodePoint)
      (others : Text) : lowUnit? (first :: codePoint :: others) = some none :=
    if_neg fun both => (nothing isEnd).2 both.2
  cases unifies with
  | nil => rfl
  | lineEnd isEnd rest => rw [noBackslash isEnd, noBackslash rfl]
  | plain notEnd rest =>
      cases rest with
      | nil => rfl
      | lineEnd isEnd rest => rw [noLetter isEnd, noLetter rfl]
      | plain notEnd rest => rw [lowUnit?, lowUnit?, escaped?_unifies rest]

/-- A low surrogate is an escape of six code points. -/
theorem of_lowUnit? {rest : Text} {low : Nat} (given : lowUnit? rest = some (some low)) :
    WithinLine (rest.take 6) ∧ insideLength (rest.drop 6) < insideLength rest := by
  unfold lowUnit? at given
  split at given
  next backslash letter digits =>
    split at given
    next both =>
      obtain ⟨rfl, rfl⟩ := both
      obtain ⟨value, isValue, -⟩ := Option.map_eq_some_iff.mp given
      refine ⟨?_, ?_⟩
      · have marks : WithinLine [ofChar '\\', ofChar 'u'] := by decide
        have front : WithinLine ((ofChar '\\' :: ofChar 'u' :: digits).take 2) := marks
        exact withinLine_take_add front (withinLine_of_escaped? isValue)
      · rw [insideLength_escape isValue]
        exact Nat.lt_add_of_pos_right (Nat.succ_pos _)
    · cases given
  · cases given

/-- Reads on behind an escape, which may be the first half of a pair. -/
def readBehind (fuel start value : Nat) (next : Cursor) (known : Text) :
    Except ReadFault (Text × Cursor) :=
  let first := CodePoint.ofNat value
  if first.isHighSurrogate then
    match lowSurrogate? next.position next.rest with
    | .error fault => .error fault
    | .ok (some low) =>
      let joined := 0x10000 + (value - 0xD800) * 0x400 + (low - 0xDC00)
      readInside fuel start (next.advance 6) (CodePoint.ofNat joined :: known)
    | .ok none => readInside fuel start next (first :: known)
  else readInside fuel start next (first :: known)

/-- An escape is read by its digits, and then what stands behind it. -/
theorem readInside_escape (fuel start position : Nat) (digits known : Text) :
    readInside (fuel + 1) start ⟨position, ofChar '\\' :: ofChar 'u' :: digits⟩ known =
      match escaped? digits with
      | none => .error (.malformed .invalidUnicodeEscape (position + 1))
      | some value => readBehind fuel start value
          (Cursor.advance ⟨position, ofChar '\\' :: ofChar 'u' :: digits⟩ 6) known := by
  have quoteOther : ofChar '\\' ≠ ofChar '"' := by decide
  simp only [readInside, quoteOther, if_true, if_false, escaped?]
  split
  · rfl
  · cases fourHexDigits? digits <;> rfl

/-- A low surrogate is looked for in the digits of an escape, if something stands behind them. -/
theorem lowSurrogate?_escape (position : Nat) (digits : Text) :
    lowSurrogate? position (ofChar '\\' :: ofChar 'u' :: digits) =
      if (digits.take 5).length < 5 then .ok none
      else
        match fourHexDigits? digits with
        | none => .error (.malformed .invalidUnicodeEscape (position + 1))
        | some value =>
          if (CodePoint.ofNat value).isLowSurrogate then .ok (some value) else .ok none := by
  have longEnough : 5 ≤ (digits.take 5).length ↔ ¬ (digits.take 5).length < 5 := Nat.not_lt.symm
  cases given : fourHexDigits? digits <;>
    simp only [lowSurrogate?, given, decide_true, Bool.and_self, Bool.true_and, decide_eq_true_eq,
      longEnough, ite_not]

/-- A broken escape is found when it is looked at as the second half of a pair, or else when it is
read. -/
theorem readBehind_of_broken (fuel start : Nat) {value : Nat} {next : Cursor} (known : Text)
    (isHigh : (CodePoint.ofNat value).isHighSurrogate = true) (broken : lowUnit? next.rest = none) :
    ∃ cause position,
      readBehind fuel start value next known = .error (.malformed cause position) := by
  obtain ⟨position, rest⟩ := next
  unfold lowUnit? at broken
  dsimp only at broken
  split at broken
  next backslash letter digits =>
    split at broken
    next both =>
      obtain ⟨rfl, rfl⟩ := both
      have noDigits := Option.map_eq_none_iff.mp broken
      simp only [readBehind, isHigh, if_true, lowSurrogate?_escape]
      by_cases short : (digits.take 5).length < 5
      · simp only [short, if_true]
        cases fuel with
        | zero => exact ⟨_, _, rfl⟩
        | succ fuel =>
            rw [readInside_escape, noDigits]
            exact ⟨_, _, rfl⟩
      · rw [escaped?, if_neg short] at noDigits
        simp only [short, if_false, noDigits]
        exact ⟨_, _, rfl⟩
    · cases broken
  · cases broken

/-- Otherwise the second half is joined with the first one, or what follows is read by itself. -/
theorem readBehind_of_low {fuel start value : Nat} {next : Cursor} {known : Text}
    (isHigh : (CodePoint.ofNat value).isHighSurrogate = true) {low? : Option Nat}
    (given : lowUnit? next.rest = some low?) :
    readBehind fuel start value next known =
      match low? with
      | some low =>
        let joined := 0x10000 + (value - 0xD800) * 0x400 + (low - 0xDC00)
        readInside fuel start (next.advance 6) (CodePoint.ofNat joined :: known)
      | none => readInside fuel start next (CodePoint.ofNat value :: known) := by
  have looked : lowSurrogate? next.position next.rest = .ok low? := by
    obtain ⟨position, rest⟩ := next
    unfold lowUnit? at given
    dsimp only at given ⊢
    split at given
    next backslash letter digits =>
      split at given
      next both =>
        obtain ⟨rfl, rfl⟩ := both
        obtain ⟨value, isValue, rfl⟩ := Option.map_eq_some_iff.mp given
        rw [lowSurrogate?_escape]
        unfold escaped? at isValue
        split at isValue
        · cases isValue
        next long =>
          rw [if_neg long, isValue]
          dsimp only
          split <;> rfl
      next other =>
        cases given
        unfold lowSurrogate?
        dsimp only
        rw [if_neg]
        simp only [Bool.and_eq_true, decide_eq_true_eq]
        exact fun both => other both.1
    next other =>
      cases given
      unfold lowSurrogate?
      split
      next backslash letter digits => exact absurd rfl (other backslash letter digits)
      · rfl
  simp only [readBehind, isHigh, if_true, looked]
  cases low? <;> rfl

/-- What stands behind an escape is read in the same way at both cursors, if the inside of a text
is. -/
theorem readBehind_parallel {results : Text × Cursor → Text × Cursor → Prop}
    {fuel fuel' start start' : Nat} (value : Nat) (known : Text) {next next' : Cursor}
    (unifies : Unifies next next')
    (inside : ∀ count known, WithinLine (next.rest.take count) →
      insideLength (next.rest.drop count) ≤ insideLength next.rest →
      insideLength (next'.rest.drop count) ≤ insideLength next'.rest →
      Parallel SameKind results (readInside fuel start (next.advance count) known)
        (readInside fuel' start' (next'.advance count) known)) :
    Parallel SameKind results (readBehind fuel start value next known)
      (readBehind fuel' start' value next' known) := by
  have byItself := inside 0 (CodePoint.ofNat value :: known) (List.forall_mem_nil _)
    (Nat.le_refl _) (Nat.le_refl _)
  cases isHigh : (CodePoint.ofNat value).isHighSurrogate with
  | false =>
      simp only [readBehind, isHigh]
      exact byItself
  | true =>
      have sameLow := lowUnit?_unifies unifies
      cases given : lowUnit? next.rest with
      | none =>
          obtain ⟨_, _, isFault⟩ := readBehind_of_broken fuel start known isHigh given
          obtain ⟨_, _, isFault'⟩ := readBehind_of_broken fuel' start' known isHigh
            (sameLow ▸ given)
          rw [isFault, isFault']
          exact .error (.malformed _ _ _ _)
      | some low? =>
          have given' : lowUnit? next'.rest = some low? := sameLow ▸ given
          rw [readBehind_of_low isHigh given, readBehind_of_low isHigh given']
          cases low? with
          | none => exact byItself
          | some low =>
              obtain ⟨within, shorter⟩ := of_lowUnit? given
              exact inside 6 _ within shorter.le (of_lowUnit? given').2.le

/-- A code point that is no mark is one before the mark that closes a text. -/
theorem insideLength_cons {first : CodePoint} (notQuote : first ≠ ofChar '"')
    (notBackslash : first ≠ ofChar '\\') (others : Text) :
    insideLength others < insideLength (first :: others) := by
  cases others with
  | nil => exact Nat.one_pos
  | cons second others =>
      rw [insideLength, if_neg notQuote, if_neg notBackslash]
      exact Nat.lt_succ_self _

/-- A code point that begins a line end is no mark, stands for no other one and is refused inside a
text. -/
theorem of_isLineEnd {codePoint : CodePoint} (isEnd : isLineEnd codePoint = true) :
    codePoint ≠ ofChar '"' ∧ codePoint ≠ ofChar '\\' ∧ codePoint ≠ ofChar 'u' ∧
      codePoint.value < 0x20 ∧ simpleEscape? codePoint = none := by
  obtain rfl | rfl := Text.isLineEnd_iff.mp isEnd <;> decide

/-- What a backslash begins is read in the same way at both cursors, if what stands behind it is. -/
theorem readInside_backslash_parallel {fuel fuel' start start' position position' : Nat}
    {others others' known : Text} (unified : others.Unifies others')
    (further : ∀ {count : Nat},
      WithinLine ((ofChar '\\' :: others).take count) →
      insideLength ((ofChar '\\' :: others).drop count) < insideLength (ofChar '\\' :: others) →
      insideLength ((ofChar '\\' :: others').drop count) <
        insideLength (ofChar '\\' :: others') → ∀ known,
      Parallel SameKind
        (SameRead ⟨position, ofChar '\\' :: others⟩ ⟨position', ofChar '\\' :: others'⟩)
        (readInside fuel start (Cursor.advance ⟨position, ofChar '\\' :: others⟩ count) known)
        (readInside fuel' start' (Cursor.advance ⟨position', ofChar '\\' :: others'⟩ count)
          known)) :
    Parallel SameKind
      (SameRead ⟨position, ofChar '\\' :: others⟩ ⟨position', ofChar '\\' :: others'⟩)
      (readInside (fuel + 1) start ⟨position, ofChar '\\' :: others⟩ known)
      (readInside (fuel' + 1) start' ⟨position', ofChar '\\' :: others'⟩ known) := by
  have quoteOther : ofChar '\\' ≠ ofChar '"' := by decide
  cases unified with
  | nil => exact .error (.malformed _ _ _ _)
  | lineEnd isEnd unified =>
      have ends := of_isLineEnd isEnd
      have ends' := of_isLineEnd (rfl : isLineEnd (ofChar '\n') = true)
      simp only [readInside, quoteOther, ends, ends', if_true, if_false]
      exact .error (.malformed _ _ _ _)
  | @plain letter digits digits' notEnd unified =>
      have two : WithinLine ((ofChar '\\' :: letter :: digits).take 2) :=
        List.forall_mem_cons.mpr ⟨rfl, List.forall_mem_singleton.mpr notEnd⟩
      by_cases isUnicode : letter = ofChar 'u'
      · subst isUnicode
        have sameValue := escaped?_unifies unified
        rw [readInside_escape, readInside_escape, ← sameValue]
        cases given : escaped? digits with
        | none => exact .error (.malformed _ _ _ _)
        | some value =>
            have six := withinLine_take_add two (withinLine_of_escaped? given)
            have long := insideLength_escape given
            have long' := insideLength_escape (sameValue ▸ given)
            have atNext := (Text.Unifies.plain rfl (.plain notEnd unified)).take_and_drop six
            refine readBehind_parallel value known atNext.2
              fun count known within shorter shorter' => ?_
            have passed (position : Nat) (text : Text) :
                ((Cursor.mk position text).advance 6).advance count =
                  (Cursor.mk position text).advance (6 + count) := by
              simp [Cursor.advance, Nat.add_assoc]
            rw [passed, passed]
            refine further (withinLine_take_add six within) ?_ ?_ known
            · rw [← List.drop_drop, long]
              exact Nat.lt_of_le_of_lt shorter (Nat.lt_add_of_pos_right (Nat.succ_pos _))
            · rw [← List.drop_drop, long']
              exact Nat.lt_of_le_of_lt shorter' (Nat.lt_add_of_pos_right (Nat.succ_pos _))
      · simp only [readInside, quoteOther, isUnicode, if_true, if_false]
        cases simpleEscape? letter with
        | none => exact .error (.malformed _ _ _ _)
        | some escaped =>
            refine further two ?_ ?_ _ <;>
              simp only [List.drop_succ_cons, List.drop_zero, insideLength, quoteOther, if_true,
                if_false] <;> omega

/-- The inside of a text is read in the same way at both cursors. A line end in it is refused, and
so is one in an escape. -/
theorem readInside_parallel {fuel fuel' : Nat} (start start' : Nat) (known : Text)
    (enough : insideLength left.rest < fuel) (enough' : insideLength right.rest < fuel')
    (unifies : Unifies left right) :
    Parallel SameKind (SameRead left right) (readInside fuel start left known)
      (readInside fuel' start' right known) := by
  induction fuel generalizing fuel' left right known with
  | zero => omega
  | succ fuel inductionHypothesis =>
      obtain _ | fuel' := fuel'
      · omega
      obtain ⟨position, rest⟩ := left
      obtain ⟨position', rest'⟩ := right
      have further {count : Nat} (within : WithinLine (rest.take count))
          (shorter : insideLength (rest.drop count) < insideLength rest)
          (shorter' : insideLength (rest'.drop count) < insideLength rest') (known : Text) :
          Parallel SameKind (SameRead ⟨position, rest⟩ ⟨position', rest'⟩)
            (readInside fuel start (Cursor.advance ⟨position, rest⟩ count) known)
            (readInside fuel' start' (Cursor.advance ⟨position', rest'⟩ count) known) := by
        have moved : Unifies (Cursor.advance ⟨position, rest⟩ count)
            (Cursor.advance ⟨position', rest'⟩ count) := (unifies.take_and_drop within).2
        refine (inductionHypothesis known ?_ ?_ moved).imp fun _ _ same => same.earlier ?_ ?_
        · exact shorter.trans_le (Nat.le_of_lt_succ enough)
        · exact shorter'.trans_le (Nat.le_of_lt_succ enough')
        · exact (List.length_drop ..).trans_le (Nat.sub_le _ _)
        · exact (List.length_drop ..).trans_le (Nat.sub_le _ _)
      cases unifies with
      | nil => exact .error (.malformed _ _ _ _)
      | @lineEnd first others right isEnd unified =>
          have ends := of_isLineEnd isEnd
          have ends' := of_isLineEnd (rfl : isLineEnd (ofChar '\n') = true)
          simp only [readInside, ends, ends', if_true, if_false]
          exact .error (.malformed _ _ _ _)
      | @plain first others others' notEnd unified =>
          have one : WithinLine ((first :: others).take 1) := List.forall_mem_singleton.mpr notEnd
          by_cases isQuote : first = ofChar '"'
          · simp only [readInside, isQuote, if_true]
            exact .ok ⟨rfl, unified, Nat.lt_succ_self _, Nat.lt_succ_self _⟩
          by_cases isBackslash : first = ofChar '\\'
          · subst isBackslash
            exact readInside_backslash_parallel unified further
          · have shorter := insideLength_cons isQuote isBackslash others
            have shorter' := insideLength_cons isQuote isBackslash others'
            simp only [readInside, isQuote, isBackslash, if_false]
            split
            · exact .error (.malformed _ _ _ _)
            · exact further one shorter shorter' _

end Texts

/-- A text is read in the same way at both cursors, where its mark opens it. -/
theorem readText_parallel (unifies : Unifies left right) (opens : left.startsWith '"' = true) :
    Parallel SameKind (SameRead left right) (readText left) (readText right) := by
  have moved := (Unifies.moves_one right rfl opens).unifies unifies
  refine (readInside_parallel left.position right.position [] (Nat.lt_succ_self _)
    (Nat.lt_succ_self _) moved).imp fun _ _ same => same.earlier ?_ ?_
  · exact (List.length_drop ..).trans_le (Nat.sub_le _ _)
  · exact (List.length_drop ..).trans_le (Nat.sub_le _ _)

end SchemaOrder.Json
