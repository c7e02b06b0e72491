import SchemaOrder.Document.Printer
import SchemaOrder.Proofs.Document.Cutting

/-!
# Texts between quotation marks

A text that was written between its marks is read back as it was, escapes and all, unless it
holds half of a pair of surrogates, which is never read. This module holds that for the texts
on one line; those in blocks have a module of their own.
-/

namespace SchemaOrder.Document

open CodePoint (ofChar)

/-- An escape of four digits says the number it was written for. -/
theorem fourDigits?_written : ∀ value < 0xA0,
    fourDigits? (Text.padLeft 4 (Text.digitsIn 16 value) '0') = some value ∧
      (Text.padLeft 4 (Text.digitsIn 16 value) '0').length = 4 ∧
      (Text.padLeft 4 (Text.digitsIn 16 value) '0').head? = some (ofChar '0') ∧
      ofChar '\n' ∉ Text.padLeft 4 (Text.digitsIn 16 value) '0' := by
  decide +kernel

/-- Only the first four code points of an escape count. -/
theorem fourDigits?_append {digits : Text} (four : digits.length = 4) (rest : Text) :
    fourDigits? (digits ++ rest) = fourDigits? digits := by
  have enough : ¬ (digits ++ rest).length < 4 := by
    simp
    omega
  have prefixOnly : (digits ++ rest).take 4 = digits := List.take_left' four
  have whole : digits.take 4 = digits := List.take_of_length_le (Nat.le_of_eq four)
  unfold fourDigits?
  rw [if_neg enough, if_neg (by omega), prefixOnly, whole]

/-- An escape of four digits is read as the code point it was written for. -/
theorem readEscape_unicode {value : Nat} (small : value < 0xA0) (position : Nat) (rest : Text) :
    readEscape ⟨position, "\\u" ++ Text.padLeft 4 (Text.digitsIn 16 value) '0' ++ rest⟩ =
      .ok (CodePoint.ofNat value, 6) := by
  obtain ⟨read, four, zero, -⟩ := fourDigits?_written value small
  have digits := fourDigits?_append four rest
  rw [read] at digits
  obtain ⟨first, others, isCons⟩ := List.exists_cons_of_length_eq_add_one four
  rw [isCons] at digits zero ⊢
  have noBrace : first ≠ ofChar '\x7b' := by
    rw [Option.some.inj zero]
    decide
  have notSurrogate : (CodePoint.ofNat value).isSurrogate = false := by
    have bound : value < 0x110000 := by omega
    simp [CodePoint.isSurrogate, CodePoint.isHighSurrogate, CodePoint.isLowSurrogate,
      CodePoint.value_ofNat bound]
    omega
  have letter : (("\\u" : Text) ++ (first :: others) ++ rest)[1]? = some (ofChar 'u') := rfl
  have brace : (("\\u" : Text) ++ (first :: others) ++ rest)[2]? = some first := rfl
  have behind : (("\\u" : Text) ++ (first :: others) ++ rest).drop 2 = first :: others ++ rest :=
    rfl
  simp only [readEscape, letter, brace, readFixedEscape, behind, digits, notSurrogate,
    Option.some.injEq, noBrace, if_true, if_false, Bool.not_false]

/-- A code point is written as it is, or as an escape that says it. -/
theorem writeCodePoint_cases (codePoint : CodePoint) :
    (writeCodePoint codePoint = [codePoint] ∧ codePoint ≠ ofChar '"' ∧ codePoint ≠ ofChar '\\' ∧
      isLineEnd codePoint = false) ∨
    codePoint.isSurrogate = false ∧
    ∃ tail, writeCodePoint codePoint = ofChar '\\' :: tail ∧ ofChar '\n' ∉ tail ∧
      ∀ position rest,
        readEscape ⟨position, ofChar '\\' :: tail ++ rest⟩ = .ok (codePoint, tail.length + 1) := by
  obtain ⟨value, inRange⟩ := codePoint
  by_cases simple : value = 34 ∨ value = 92 ∨ value = 8 ∨ value = 9 ∨ value = 10 ∨ value = 12 ∨
      value = 13
  · rcases simple with rfl | rfl | rfl | rfl | rfl | rfl | rfl <;>
      exact .inr ⟨rfl, _, rfl, by decide, fun _ _ => rfl⟩
  have common : writeCodePoint ⟨value, inRange⟩ =
      if value < 0x20 || (0x7F ≤ value && value ≤ 0x9F) then
        "\\u" ++ Text.padLeft 4 (Text.digitsIn 16 value) '0'
      else [⟨value, inRange⟩] := by
    have quote : ¬ value = '"'.toNat := fun same => simple (.inl same)
    have backslash : ¬ value = '\\'.toNat := fun same => simple (.inr (.inl same))
    simp only [not_or] at simple
    simp only [writeCodePoint, quote, backslash, simple, if_false]
  rw [common]
  split
  · rename_i control
    have small : value < 0xA0 := by
      simp only [Bool.or_eq_true, Bool.and_eq_true, decide_eq_true_eq] at control
      omega
    have same : CodePoint.ofNat value = ⟨value, inRange⟩ :=
      CodePoint.ext (CodePoint.value_ofNat inRange)
    refine .inr ⟨?_, _, rfl, ?_, fun position rest => ?_⟩
    · simp [CodePoint.isSurrogate, CodePoint.isHighSurrogate, CodePoint.isLowSurrogate]
      omega
    · exact List.not_mem_cons_of_ne_of_not_mem (by decide) (fourDigits?_written value small).2.2.2
    · have length : (Text.padLeft 4 (Text.digitsIn 16 value) '0').length = 4 :=
        (fourDigits?_written value small).2.1
      have read := readEscape_unicode small position rest
      rw [same] at read
      exact read.trans (by simp [length])
  · have differ : ∀ other : CodePoint, value ≠ other.value →
        (⟨value, inRange⟩ : CodePoint) ≠ other := by
      rintro other values rfl
      exact values rfl
    simp only [not_or] at simple
    obtain ⟨quote, backslash, -, -, lineFeed, -, carriageReturn⟩ := simple
    refine .inl ⟨rfl, differ _ quote, differ _ backslash, ?_⟩
    simpa [isLineEnd] using ⟨lineFeed, carriageReturn⟩

/-- How long the character is that a code point which is no surrogate begins. -/
theorem characterLength_of_not_surrogate {codePoint : CodePoint} (rest : Text)
    (notSurrogate : codePoint.isSurrogate = false) : characterLength (codePoint :: rest) = 1 := by
  simp [characterLength, notSurrogate]

/-- What a surrogate that was written begins is a pair, if anything. -/
theorem characterLength_of_surrogate {codePoint : CodePoint} (others rest : Text)
    (isSurrogate : codePoint.isSurrogate = true) :
    characterLength (codePoint :: (others.flatMap writeCodePoint ++ ofChar '"' :: rest)) = 0 ∨
      ∃ second later, others = second :: later ∧ writeCodePoint second = [second] ∧
        characterLength (codePoint :: (others.flatMap writeCodePoint ++ ofChar '"' :: rest)) =
          2 := by
  have notLow : ∀ escape : CodePoint, escape.isLowSurrogate = false → ∀ tail : Text,
      characterLength (codePoint :: escape :: tail) = 0 := by
    intro escape notLow tail
    simp [characterLength, isSurrogate, notLow]
  cases others with
  | nil => exact .inl (notLow _ (by decide) rest)
  | cons second later =>
      rcases writeCodePoint_cases second with ⟨plain, -⟩ | ⟨-, tail, written, -⟩
      · rw [List.flatMap_cons, plain]
        by_cases isPair : codePoint.isHighSurrogate && second.isLowSurrogate
        · exact .inr ⟨second, later, rfl, plain, by simp [characterLength, isSurrogate, isPair]⟩
        · exact .inl (by simp [characterLength, isSurrogate, isPair])
      · rw [List.flatMap_cons, written]
        exact .inl (notLow _ (by decide) _)

/-- A code point that stands for itself inside a text is taken, with the other half of its pair. -/
theorem readInside_plain {codePoint : CodePoint} (notQuote : codePoint ≠ ofChar '"')
    (notBackslash : codePoint ≠ ofChar '\\') (notEnd : isLineEnd codePoint = false)
    {fuel start position : Nat} {after known : Text} :
    readInside (fuel + 1) start ⟨position, codePoint :: after⟩ known =
      match characterLength (codePoint :: after) with
      | 0 => .error ⟨.invalidInText codePoint, position⟩
      | 1 => readInside fuel start ⟨position + 1, after⟩ (codePoint :: known)
      | _ => readInside fuel start ⟨position + 2, after.drop 1⟩
        (after.take 1 ++ codePoint :: known) := by
  simp only [readInside, notQuote, notBackslash, notEnd, Bool.false_eq_true, if_false]
  rfl

/-- A text that was written, up to its end and what stands behind that, is read as it was, unless
half of a pair of surrogates stands in it. What was read before is kept backwards. -/
theorem readInside_written (start : Nat) (rest content : Text) (fuel position : Nat) (known : Text)
    (enough : (content.flatMap writeCodePoint).length < fuel) :
    (∃ next, readInside fuel start
        ⟨position, content.flatMap writeCodePoint ++ ofChar '"' :: rest⟩ known =
          .ok (⟨.text (known.reverse ++ content), start⟩, ⟨next, rest⟩)) ∨
      ∃ fault, readInside fuel start
        ⟨position, content.flatMap writeCodePoint ++ ofChar '"' :: rest⟩ known = .error fault := by
  induction fuel generalizing content position known with
  | zero => omega
  | succ fuel inductionHypothesis =>
    cases content with
    | nil =>
      refine .inl ⟨position + 1, ?_⟩
      simp [readInside, Cursor.advance]
    | cons codePoint others =>
      rw [List.flatMap_cons, List.length_append] at enough
      rw [List.flatMap_cons, List.append_assoc]
      rcases writeCodePoint_cases codePoint with ⟨plain, notQuote, notBackslash, notEnd⟩ |
        ⟨-, tail, written, -, escape⟩
      · rw [plain, List.length_singleton] at enough
        rw [plain, List.singleton_append]
        rw [readInside_plain notQuote notBackslash notEnd]
        cases isSurrogate : codePoint.isSurrogate with
        | false =>
            rw [characterLength_of_not_surrogate _ isSurrogate]
            simpa using inductionHypothesis others (position + 1) (codePoint :: known) (by omega)
        | true =>
            rcases characterLength_of_surrogate others rest isSurrogate with
              none | ⟨second, later, rfl, plain, two⟩
            · rw [none]
              exact .inr ⟨_, rfl⟩
            · rw [two]
              rw [List.flatMap_cons, plain, List.length_append, List.length_singleton] at enough
              simpa [plain] using
                inductionHypothesis later (position + 2) (second :: codePoint :: known) (by omega)
      · rw [written, List.length_cons] at enough
        rw [written]
        have read := escape position (others.flatMap writeCodePoint ++ ofChar '"' :: rest)
        have different : ofChar '\\' ≠ ofChar '"' := by decide
        simp only [List.cons_append] at read ⊢
        simp only [readInside, if_neg different, if_true, read, Cursor.advance,
          List.drop_succ_cons, List.drop_left]
        simpa using inductionHypothesis others (position + (tail.length + 1)) (codePoint :: known)
          (by omega)

/-- A text that was written does not begin like a block, unless a quotation mark stands behind
it. -/
theorem not_startsWith_block (content : Text) {rest : Text} (apart : Apart rest) (position : Nat) :
    Cursor.startsWithText
      ⟨position, ofChar '"' :: (content.flatMap writeCodePoint ++ ofChar '"' :: rest)⟩
        "\"\"\"" = false := by
  have mark : ofChar '"' ≠ ofChar '\\' := by decide
  cases content with
  | nil =>
      cases rest with
      | nil => rfl
      | cons head tail =>
          have notQuote := (apart head rfl).2.2
          simp [Cursor.startsWithText, Text.ofString, List.isPrefixOf, Ne.symm notQuote]
  | cons codePoint others =>
      rcases writeCodePoint_cases codePoint with ⟨plain, notQuote, -⟩ | ⟨-, tail, written, -⟩
      · simp [Cursor.startsWithText, Text.ofString, List.isPrefixOf, plain, Ne.symm notQuote]
      · simp [Cursor.startsWithText, Text.ofString, List.isPrefixOf, written, mark]

/-- A text that was written is one token, if it can be read. -/
theorem Cuts.text (content : Text) {rest : Text} (apart : Apart rest) :
    Cuts (writeText content) rest [.text content] := by
  change Cuts (ofChar '"' :: (content.flatMap writeCodePoint ++ [ofChar '"'])) rest _
  refine token nofun (by decide) (by decide) fun position => ?_
  have noBlock := not_startsWith_block content apart position
  have read := readInside_written position rest content
    ((content.flatMap writeCodePoint ++ ofChar '"' :: rest).length + 1) (position + 1) []
    (by rw [List.length_append]; omega)
  rw [List.cons_append, List.append_assoc, List.singleton_append]
  simp only [readToken, noBlock, Bool.false_eq_true, if_false, if_true]
  exact read

/-- A text that was written is on one line. -/
theorem noFeed_writeText (content : Text) : ofChar '\n' ∉ writeText content := by
  have inside : ofChar '\n' ∉ content.flatMap writeCodePoint := by
    intro mem
    obtain ⟨codePoint, -, mem⟩ := List.mem_flatMap.mp mem
    rcases writeCodePoint_cases codePoint with ⟨plain, -, -, notEnd⟩ | ⟨-, tail, written, noFeed, -⟩
    · rw [plain] at mem
      obtain rfl := List.mem_singleton.mp mem
      cases notEnd
    · rw [written] at mem
      exact List.not_mem_cons_of_ne_of_not_mem (by decide) noFeed mem
  have marks : ofChar '\n' ∉ [ofChar '"'] := by decide
  change ofChar '\n' ∉ [ofChar '"'] ++ content.flatMap writeCodePoint ++ [ofChar '"']
  simp only [List.mem_append, marks, inside, or_self, not_false_iff]

/-- A text that was written holds no carriage return. -/
theorem noReturn_writeText (content : Text) : ofChar '\r' ∉ writeText content := by
  have small : ∀ value < 0xA0, ofChar '\r' ∉ writeCodePoint (CodePoint.ofNat value) := by
    decide +kernel
  have each : ∀ codePoint, ofChar '\r' ∉ writeCodePoint codePoint := by
    intro codePoint
    by_cases isSmall : codePoint.value < 0xA0
    · rw [show codePoint = CodePoint.ofNat codePoint.value from
        CodePoint.ext (CodePoint.value_ofNat codePoint.inRange).symm]
      exact small codePoint.value isSmall
    · have quotes : '"'.toNat = 34 ∧ '\\'.toNat = 92 := by decide
      have plain : writeCodePoint codePoint = [codePoint] := by
        unfold writeCodePoint
        simp only [quotes, Bool.or_eq_true, Bool.and_eq_true, decide_eq_true_eq]
        split_ifs <;> first | rfl | omega
      rw [plain, List.mem_singleton]
      rintro rfl
      exact isSmall (by decide)
  have inside : ofChar '\r' ∉ content.flatMap writeCodePoint := by
    intro mem
    obtain ⟨codePoint, -, mem⟩ := List.mem_flatMap.mp mem
    exact each codePoint mem
  have marks : ofChar '\r' ∉ [ofChar '"'] := by decide
  change ofChar '\r' ∉ [ofChar '"'] ++ content.flatMap writeCodePoint ++ [ofChar '"']
  simp only [List.mem_append, marks, inside, or_self, not_false_iff]

end SchemaOrder.Document
