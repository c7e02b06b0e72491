import SchemaOrder.Proofs.Document.Cutting
import SchemaOrder.Proofs.Document.LineEnds
import SchemaOrder.Proofs.Matching

/-!
# Numbers and texts with the same line ends

In a text and in the text with line feeds the same numbers and the same texts are read, or both
readers fail. The readers are compared function by function: numbers hold no line ends, neither do
texts between quotation marks, and the lines of a block text are cut at line ends of any form.
-/

namespace SchemaOrder.Document

open CodePoint (ofChar)
open Cursor (Unifies Moves)
open Outcome (Matches)
open Text (WithinLine isLineEnd_of_admitted not_admitted_of_isLineEnd withinLine_take_succ)

variable {left right : Cursor}

/-- Tokens of the same kind, and cursors with the same in front of them. -/
def SameToken (read read' : Token × Cursor) : Prop :=
  read.1.kind = read'.1.kind ∧ read.2.Unifies read'.2

section Numbers

/-- The same digits are read, since no digit ends a line. -/
theorem readDigits_matches (unifies : Unifies left right) :
    Matches (Moves left right) (readDigits left) (readDigits right) := by
  unfold readDigits
  obtain same | ⟨first, atLeft, isEnd, atRight⟩ := unifies.head?
  · rw [← same]
    cases left.rest.head? with
    | none => exact .error _ _
    | some first =>
        dsimp only
        split
        · exact .ok (unifies.moves_skip (isLineEnd_of_admitted CodePoint.isDigit rfl rfl))
        · exact .error _ _
  · rw [atLeft, atRight]
    have noDigit := not_admitted_of_isLineEnd CodePoint.isDigit rfl rfl isEnd
    simp only [noDigit]
    exact .error _ _

/-- What follows is refused behind both cursors or behind neither, if it is refused for a code point
that ends no line. -/
theorem refused_matches {α β : Type} {related : α → β → Prop} {result : Except ReadFault α}
    {result' : Except ReadFault β} (unifies : Unifies left right) (refuses : CodePoint → Bool)
    (noFeed : refuses (ofChar '\n') = false) (noReturn : refuses (ofChar '\r') = false)
    (fault fault' : CodePoint → ReadFault) (otherwise : Matches related result result') :
    Matches related
      (match left.rest.head? with
        | some codePoint => if refuses codePoint then .error (fault codePoint) else result
        | none => result)
      (match right.rest.head? with
        | some codePoint => if refuses codePoint then .error (fault' codePoint) else result'
        | none => result') := by
  obtain same | ⟨first, atLeft, isEnd, atRight⟩ := unifies.head?
  · rw [← same]
    cases left.rest.head? with
    | none => exact otherwise
    | some first =>
        dsimp only
        split
        · exact .error _ _
        · exact otherwise
  · rw [atLeft, atRight]
    simp only [not_admitted_of_isLineEnd refuses noFeed noReturn isEnd, noFeed]
    exact otherwise

/-- The same holds of the whole part of a number. -/
theorem readWhole_matches (unifies : Unifies left right) :
    Matches (Moves left right) (readWhole left) (readWhole right) := by
  unfold readWhole
  rw [← unifies.startsWith_eq '0' rfl]
  split
  next isZero =>
    have moves := Unifies.moves_one right (rfl : isLineEnd (ofChar '0') = false) isZero
    exact refused_matches (moves.unifies unifies) CodePoint.isDigit rfl rfl _ _ (.ok moves)
  · exact readDigits_matches unifies

/-- The place behind one of two marks, where one of them stands. -/
def behindMark (first second : Char) (cursor : Cursor) : Cursor :=
  if cursor.startsWith first || cursor.startsWith second then cursor.advance 1 else cursor

/-- The same marks are passed by, if neither of them ends a line. -/
theorem behindMark_moves (unifies : Unifies left right) {first second : Char}
    (notEnd : isLineEnd (ofChar first) = false) (notEnd' : isLineEnd (ofChar second) = false) :
    Moves left right (behindMark first second left) (behindMark first second right) := by
  unfold behindMark
  rw [← unifies.startsWith_eq first notEnd, ← unifies.startsWith_eq second notEnd']
  split
  next starts =>
    rcases Bool.or_eq_true_iff.mp starts with isFirst | isSecond
    · exact Unifies.moves_one right notEnd isFirst
    · exact Unifies.moves_one right notEnd' isSecond
  · exact .refl left right

/-- The place behind a fraction, where one begins. -/
def readFraction (whole : Cursor) : Except ReadFault Cursor :=
  if whole.startsWith '.' then readDigits (whole.advance 1) else pure whole

/-- The place behind an exponent, where one begins. -/
def readOptionalExponent (fraction : Cursor) : Except ReadFault Cursor :=
  if fraction.startsWith 'e' || fraction.startsWith 'E' then
    readDigits (behindMark '+' '-' (fraction.advance 1))
  else pure fraction

/-- The token of a number whose parts end at some places, unless it is followed by something that
goes on with it. -/
def finishNumber (cursor whole finish : Cursor) : Except ReadFault (Token × Cursor) :=
  let digits := cursor.rest.take (finish.position - cursor.position)
  let kind : TokenKind :=
    if finish.position = whole.position then .integer digits else .float digits
  match finish.rest.head? with
  | some codePoint =>
    if codePoint.isNameStart || codePoint = CodePoint.ofChar '.' then
      .error ⟨.notDigit (some codePoint), finish.position⟩
    else pure (⟨kind, cursor.position⟩, finish)
  | none => pure (⟨kind, cursor.position⟩, finish)

/-- A number is read part by part. -/
theorem readNumber_eq (cursor : Cursor) : readNumber cursor = (do
    let whole ← readWhole (behindMark '-' '-' cursor)
    let fraction ← readFraction whole
    let finish ← readOptionalExponent fraction
    finishNumber cursor whole finish) := by
  have sign : (if cursor.startsWith '-' then cursor.advance 1 else cursor) =
      behindMark '-' '-' cursor := by
    rw [behindMark, Bool.or_self]
  unfold readNumber readFraction readOptionalExponent
  rw [sign]
  refine bind_congr fun whole => ?_
  cases whole.startsWith '.' <;> refine bind_congr fun fraction => ?_ <;> dsimp only <;>
    cases (fraction.startsWith 'e' || fraction.startsWith 'E') <;> rfl

/-- The same number is read at both cursors. -/
theorem readNumber_matches (unifies : Unifies left right) :
    Matches SameToken (readNumber left) (readNumber right) := by
  have signed := behindMark_moves unifies (rfl : isLineEnd (ofChar '-') = false)
    (rfl : isLineEnd (ofChar '-') = false)
  rw [readNumber_eq, readNumber_eq]
  refine (readWhole_matches (signed.unifies unifies)).bind fun whole whole' toWhole => ?_
  have atWhole := toWhole.unifies (signed.unifies unifies)
  have fractions : Matches (Moves whole whole') (readFraction whole) (readFraction whole') := by
    unfold readFraction
    rw [← atWhole.startsWith_eq '.' rfl]
    split
    next isPoint =>
      have moves := Unifies.moves_one whole' (rfl : isLineEnd (ofChar '.') = false) isPoint
      exact (readDigits_matches (moves.unifies atWhole)).imp fun _ _ => moves.trans
    · exact .ok (.refl whole whole')
  refine fractions.bind fun fraction fraction' toFraction => ?_
  have atFraction := toFraction.unifies atWhole
  have exponents : Matches (Moves fraction fraction') (readOptionalExponent fraction)
      (readOptionalExponent fraction') := by
    have letter := behindMark_moves atFraction (rfl : isLineEnd (ofChar 'e') = false)
      (rfl : isLineEnd (ofChar 'E') = false)
    unfold behindMark at letter
    unfold readOptionalExponent
    rw [← atFraction.startsWith_eq 'e' rfl, ← atFraction.startsWith_eq 'E' rfl] at letter ⊢
    split
    next isExponent =>
      rw [if_pos isExponent, if_pos isExponent] at letter
      have sign := behindMark_moves (letter.unifies atFraction)
        (rfl : isLineEnd (ofChar '+') = false) (rfl : isLineEnd (ofChar '-') = false)
      exact (readDigits_matches (sign.unifies (letter.unifies atFraction))).imp fun _ _ moves =>
        letter.trans (sign.trans moves)
    · exact .ok (.refl fraction fraction')
  refine exponents.bind fun finish finish' toFinish => ?_
  have fromWhole := toFraction.trans toFinish
  have fromStart := signed.trans (toWhole.trans fromWhole)
  refine refused_matches (fromStart.unifies unifies)
    (fun codePoint => codePoint.isNameStart || codePoint = CodePoint.ofChar '.') rfl rfl _ _
    (.ok ⟨?_, fromStart.unifies unifies⟩)
  dsimp only
  rw [fromStart.taken unifies]
  exact if_congr fromWhole.position_eq_iff rfl rfl

end Numbers

section Escapes

/-- Four digits hold no line end. -/
theorem withinLine_of_fourDigits {text : Text} {value : Nat}
    (digits : fourDigits? text = some value) : WithinLine (text.take 4) := by
  have each : ∀ (front : Text) (start : Option Nat) (result : Nat),
      front.foldl (fun value codePoint => do
        let high ← value
        let low ← codePoint.hexDigit?
        pure (high * 16 + low)) start = some result → WithinLine front := by
    intro front
    induction front with
    | nil => exact fun _ _ _ => List.forall_mem_nil _
    | cons first others inductionHypothesis =>
        intro start result folded
        have noFault : ∀ others : Text, others.foldl (fun value codePoint => do
            let high ← value
            let low ← codePoint.hexDigit?
            pure (high * 16 + low)) (none : Option Nat) = none := by
          intro others
          induction others with
          | nil => rfl
          | cons _ _ inductionHypothesis => exact inductionHypothesis
        rw [List.foldl_cons] at folded
        refine List.forall_mem_cons.mpr ⟨?_, inductionHypothesis _ _ folded⟩
        refine isLineEnd_of_admitted (fun codePoint => codePoint.hexDigit?.isSome) rfl rfl first ?_
        cases isDigit : first.hexDigit? with
        | some digit => rfl
        | none =>
            rw [isDigit] at folded
            cases start <;> exact nomatch (noFault others).symm.trans folded
  unfold fourDigits? at digits
  split at digits
  · cases digits
  · exact each _ _ _ digits

/-- The same four digits begin both texts, or neither. -/
theorem fourDigits?_eq {left right : Text} (unifies : left.Unifies right) :
    fourDigits? left = fourDigits? right := by
  by_cases within : WithinLine (left.take 4)
  · have same := (unifies.take_and_drop within).1
    have lengths := congrArg List.length same
    rw [List.length_take, List.length_take] at lengths
    have short : left.length < 4 ↔ right.length < 4 := by omega
    simp only [fourDigits?, same, short]
  · have noDigits {text : Text} (notWithin : ¬ WithinLine (text.take 4)) :
        fourDigits? text = none := by
      cases digits : fourDigits? text with
      | none => rfl
      | some value => exact absurd (withinLine_of_fourDigits digits) notWithin
    rw [noDigits within, noDigits ((unifies.withinLine_take_iff 4).not.mp within)]

/-- The same escape is read at both cursors, and it holds no line end. -/
def SameEscape (cursor : Cursor) (read read' : Escape) : Prop :=
  read = read' ∧ 0 < read.2 ∧ WithinLine (cursor.rest.take read.2)

/-- The same four digits, or twice four, stand behind the marks of an escape. -/
theorem readFixedEscape_matches (unifies : Unifies left right)
    (within : WithinLine (left.rest.take 2)) :
    Matches (SameEscape left) (readFixedEscape left) (readFixedEscape right) := by
  have behind {count : Nat} (front : WithinLine (left.rest.take count)) :
      fourDigits? (left.rest.drop count) = fourDigits? (right.rest.drop count) :=
    fourDigits?_eq (unifies.take_and_drop front).2
  unfold readFixedEscape
  rw [← behind within]
  cases digits : fourDigits? (left.rest.drop 2) with
  | none => exact .error _ _
  | some value =>
      have withinSix : WithinLine (left.rest.take 6) := by
        rw [show 6 = 2 + 4 from rfl, List.take_add]
        exact List.forall_mem_append.mpr ⟨within, withinLine_of_fourDigits digits⟩
      have moves : Moves left right (left.advance 6) (right.advance 6) := ⟨6, rfl, rfl, withinSix⟩
      have marks : WithinLine (Text.ofString "\\u") := by decide
      dsimp only
      rw [← (moves.unifies unifies).startsWithText_eq marks]
      split
      · exact .ok ⟨rfl, Nat.succ_pos _, withinSix⟩
      split
      next isPair =>
        have second := Unifies.take_of_startsWithText (Bool.and_eq_true_iff.mp isPair).2
        have withinEight : WithinLine (left.rest.take 8) := by
          rw [show 8 = 6 + 2 from rfl, List.take_add]
          exact List.forall_mem_append.mpr ⟨withinSix, second ▸ marks⟩
        rw [← behind withinEight]
        cases lowDigits : fourDigits? (left.rest.drop 8) with
        | none => exact .error _ _
        | some low =>
            dsimp only
            split
            · refine .ok ⟨rfl, Nat.succ_pos _, ?_⟩
              rw [show 12 = 8 + 4 from rfl, List.take_add]
              exact List.forall_mem_append.mpr ⟨withinEight, withinLine_of_fourDigits lowDigits⟩
            · exact .error _ _
      · exact .error _ _

/-- Digits between braces are read in the same way, since either text ends where the other one does
or holds a line end there. -/
theorem readBracedDigits_matches (unifies : Unifies left right) (fuel value : Nat) {size : Nat}
    (within : WithinLine (left.rest.take size)) :
    Matches (SameEscape left)
      (readBracedDigits fuel left value size (min 12 left.rest.length))
      (readBracedDigits fuel right value size (min 12 right.rest.length)) := by
  induction fuel generalizing value size with
  | zero => exact .error _ _
  | succ fuel inductionHypothesis =>
      have behind := (unifies.take_and_drop within).2
      have sameEnd : left.rest.length ≤ size ↔ right.rest.length ≤ size := by
        have ends := behind.isEmpty_eq
        rwa [Bool.eq_iff_iff, List.isEmpty_iff, List.isEmpty_iff, List.drop_eq_nil_iff,
          List.drop_eq_nil_iff] at ends
      have sameBound : min 12 left.rest.length ≤ size ↔ min 12 right.rest.length ≤ size := by
        omega
      unfold readBracedDigits
      simp only [sameBound]
      split
      · exact .error _ _
      next notEnd =>
      rw [← List.head?_drop, ← List.head?_drop]
      obtain same | ⟨first, atLeft, isEnd, atRight⟩ := behind.head?
      · rw [← same]
        cases isFirst : (left.rest.drop size).head? with
        | none => exact .error _ _
        | some first =>
            have withinNext := withinLine_take_succ within isFirst
            dsimp only
            split
            next isBrace =>
              split
              · exact .error _ _
              · exact .ok ⟨rfl, Nat.succ_pos _, withinNext (isBrace ▸ rfl)⟩
            · cases isDigit : first.hexDigit? with
              | none => exact .error _ _
              | some digit =>
                  refine inductionHypothesis _ (withinNext ?_)
                  exact isLineEnd_of_admitted (fun codePoint => codePoint.hexDigit?.isSome) rfl rfl
                    first (by rw [isDigit]; rfl)
      · have noBrace {codePoint : CodePoint} (isEnd : isLineEnd codePoint = true) :
            codePoint ≠ ofChar '\x7d' := by
          rintro rfl
          cases isEnd
        have noDigit {codePoint : CodePoint} (isEnd : isLineEnd codePoint = true) :
            codePoint.hexDigit? = none := by
          obtain rfl | rfl := Text.isLineEnd_iff.mp isEnd <;> rfl
        rw [atLeft, atRight]
        simp only [if_neg (noBrace isEnd), noDigit isEnd, if_neg (noBrace (rfl : isLineEnd
          (ofChar '\n') = true)), noDigit (rfl : isLineEnd (ofChar '\n') = true)]
        exact .error _ _

/-- The same digits in braces stand behind them. -/
theorem readBracedEscape_matches (unifies : Unifies left right)
    (within : WithinLine (left.rest.take 3)) :
    Matches (SameEscape left) (readBracedEscape left) (readBracedEscape right) :=
  readBracedDigits_matches unifies 12 0 within

/-- The same escape stands behind the same backslash. -/
theorem readEscape_matches (unifies : Unifies left right)
    (within : WithinLine (left.rest.take 1)) :
    Matches (SameEscape left) (readEscape left) (readEscape right) := by
  have second := (unifies.take_and_drop within).2
  have sameLetter := second.head?_eq_some_iff (rfl : isLineEnd (ofChar 'u') = false)
  unfold readEscape
  simp only [← List.head?_drop, ← sameLetter]
  split
  next isUnicode =>
    have front := withinLine_take_succ within isUnicode rfl
    have sameBrace := (unifies.take_and_drop front).2.head?_eq_some_iff
      (rfl : isLineEnd (ofChar '\x7b') = false)
    simp only [← sameBrace]
    split
    next isBrace =>
      exact readBracedEscape_matches unifies (withinLine_take_succ front isBrace rfl)
    · exact readFixedEscape_matches unifies front
  · have same := second.head?_eq (fun letter => letter.bind simpleEscape?) fun first isEnd => by
      obtain rfl | rfl := Text.isLineEnd_iff.mp isEnd <;> rfl
    rw [← same]
    cases isEscape : (left.rest.drop 1).head?.bind simpleEscape? with
    | none => exact .error _ _
    | some escaped =>
        obtain ⟨letter, isLetter, isSimple⟩ := Option.bind_eq_some_iff.mp isEscape
        refine .ok ⟨rfl, Nat.succ_pos _, withinLine_take_succ within isLetter ?_⟩
        exact isLineEnd_of_admitted (fun codePoint => (simpleEscape? codePoint).isSome) rfl rfl
          letter (by rw [isSimple]; rfl)

end Escapes

section Texts

/-- A code point that ends a line is a character by itself. -/
theorem not_isSurrogate_of_isLineEnd {codePoint : CodePoint} (isEnd : isLineEnd codePoint = true) :
    codePoint.isSurrogate = false ∧ codePoint.isLowSurrogate = false := by
  obtain rfl | rfl := Text.isLineEnd_iff.mp isEnd <;> exact ⟨rfl, rfl⟩

/-- A character is as long in both texts. -/
theorem characterLength_eq {left right : Text} (unifies : left.Unifies right) :
    characterLength left = characterLength right := by
  have alone {first : CodePoint} {others : Text} (isEnd : isLineEnd first = true) :
      characterLength (first :: others) = 1 := by
    simp [characterLength, (not_isSurrogate_of_isLineEnd isEnd).1]
  have noPair {first : CodePoint} {others : Text} (isEnd : isLineEnd first = true)
      (codePoint : CodePoint) : characterLength (codePoint :: first :: others) =
        if codePoint.isSurrogate then 0 else 1 := by
    simp only [characterLength, (not_isSurrogate_of_isLineEnd isEnd).2, Bool.and_false]
    cases codePoint.isSurrogate <;> rfl
  cases unifies with
  | nil => rfl
  | lineEnd isEnd rest => rw [alone isEnd, alone rfl]
  | plain notEnd rest =>
      cases rest with
      | nil => rfl
      | plain notEnd rest => rfl
      | lineEnd isEnd rest => rw [noPair isEnd, noPair rfl]

/-- A character that is no line end holds none. -/
theorem withinLine_character {first : CodePoint} (notEnd : isLineEnd first = false)
    (others : Text) : WithinLine ((first :: others).take (characterLength (first :: others))) := by
  have alone : WithinLine [first] := List.forall_mem_singleton.mpr notEnd
  cases isSurrogate : first.isSurrogate with
  | false =>
      simp only [characterLength, isSurrogate]
      exact alone
  | true =>
      cases others with
      | nil =>
          simp only [characterLength, isSurrogate]
          exact List.forall_mem_nil _
      | cons second others =>
          simp only [characterLength, isSurrogate, Bool.not_true, Bool.false_eq_true, if_false]
          split
          next isPair =>
            have secondNotEnd : isLineEnd second = false :=
              isLineEnd_of_admitted CodePoint.isLowSurrogate rfl rfl second
                (Bool.and_eq_true_iff.mp isPair).2
            exact List.forall_mem_cons.mpr ⟨notEnd, List.forall_mem_singleton.mpr secondNotEnd⟩
          · exact List.forall_mem_nil _

/-- A character is one code point or two, or none. -/
theorem characterLength_cases (text : Text) :
    characterLength text = 0 ∨ characterLength text = 1 ∨ characterLength text = 2 := by
  unfold characterLength
  grind

/-- A character of one or two code points is read in the same way in both texts, if what follows
it is. -/
theorem character_matches {α : Type} {related : α → α → Prop} {first : CodePoint}
    {others others' : Text} (notEnd : isLineEnd first = false) (unified : others.Unifies others')
    (fault fault' : ReadFault) {one one' two two' : Except ReadFault α}
    (readOne : WithinLine ((first :: others).take 1) → Matches related one one')
    (readTwo : WithinLine ((first :: others).take 2) → others.take 1 = others'.take 1 →
      Matches related two two') :
    Matches related
      (match characterLength (first :: others) with
        | 0 => .error fault
        | 1 => one
        | _ => two)
      (match characterLength (first :: others') with
        | 0 => .error fault'
        | 1 => one'
        | _ => two') := by
  have within := withinLine_character notEnd others
  rw [← characterLength_eq (.plain notEnd unified)]
  rcases characterLength_cases (first :: others) with isNone | isOne | isTwo
  · simp only [isNone]
    exact .error _ _
  · rw [isOne] at within
    simp only [isOne]
    exact readOne within
  · rw [isTwo] at within
    have front := (Text.Unifies.plain notEnd unified).take_and_drop within
    simp only [isTwo]
    exact readTwo within (List.cons.inj front.1).2

/-- The inside of a text is read in the same way at both cursors. -/
theorem readInside_matches {fuel fuel' : Nat} (start start' : Nat) (known : Text)
    (enough : left.rest.length < fuel) (enough' : right.rest.length < fuel')
    (unifies : Unifies left right) :
    Matches SameToken (readInside fuel start left known) (readInside fuel' start' right known) := by
  induction fuel generalizing fuel' left right known with
  | zero => omega
  | succ fuel inductionHypothesis =>
      obtain _ | fuel' := fuel'
      · omega
      obtain ⟨position, rest⟩ := left
      obtain ⟨position', rest'⟩ := right
      have further {count : Nat} (positive : 0 < count) (within : WithinLine (rest.take count))
          (nonempty : 0 < rest.length) (nonempty' : 0 < rest'.length) (known : Text) :
          Matches SameToken
            (readInside fuel start (Cursor.advance ⟨position, rest⟩ count) known)
            (readInside fuel' start' (Cursor.advance ⟨position', rest'⟩ count) known) := by
        refine inductionHypothesis known ?_ ?_ (unifies.take_and_drop within).2 <;>
          simp only [Cursor.advance, List.length_drop] at enough enough' ⊢ <;> omega
      cases unifies with
      | nil => exact .error _ _
      | @lineEnd first others right isEnd unified =>
          have other {codePoint : CodePoint} (isEnd : isLineEnd codePoint = true) :
              codePoint ≠ ofChar '"' ∧ codePoint ≠ ofChar '\\' := by
            obtain rfl | rfl := Text.isLineEnd_iff.mp isEnd <;> decide
          have ends := other isEnd
          have ends' := other (rfl : isLineEnd (ofChar '\n') = true)
          have isFeed : isLineEnd (ofChar '\n') = true := rfl
          simp only [readInside, if_neg ends.1, if_neg ends.2, if_neg ends'.1, if_neg ends'.2,
            isEnd, isFeed, if_true]
          exact .error _ _
      | @plain first others others' notEnd unified =>
          have goesOn {count : Nat} (positive : 0 < count)
              (within : WithinLine ((first :: others).take count)) :=
            further positive within (Nat.succ_pos _) (Nat.succ_pos _)
          simp only [readInside, notEnd]
          split
          · exact .ok ⟨rfl, unified⟩
          split
          next isBackslash =>
            have whole : Unifies ⟨position, first :: others⟩ ⟨position', first :: others'⟩ :=
              .plain notEnd unified
            have escapes := readEscape_matches whole (List.forall_mem_singleton.mpr notEnd)
            revert escapes
            generalize readEscape ⟨position, first :: others⟩ = read
            generalize readEscape ⟨position', first :: others'⟩ = read'
            rintro (⟨⟨rfl, positive, within⟩⟩ | ⟨fault, fault'⟩)
            · exact goesOn positive within _
            · exact .error _ _
          · refine character_matches notEnd unified _ _ (fun one => goesOn Nat.one_pos one _) ?_
            intro two sameSecond
            rw [sameSecond]
            exact goesOn Nat.two_pos two _

/-- A line end completes a line of a block text, and the next line begins behind all of it. -/
theorem readBlockInside_lineEnd {first : CodePoint} (isEnd : isLineEnd first = true)
    (fuel start position : Nat) (others : Text) (lines : List Text) (line : Text) :
    ∃ next, readBlockInside (fuel + 1) start ⟨position, first :: others⟩ lines line =
      readBlockInside fuel start ⟨next, Text.behindLineEnd first others⟩
        (line.reverse :: lines) [] := by
  have noMarks : Cursor.startsWithText ⟨position, first :: others⟩ "\"\"\"" = false ∧
      Cursor.startsWithText ⟨position, first :: others⟩ "\\\"\"\"" = false := by
    constructor <;> refine Cuts.startsWithText_cons ?_ <;>
      obtain rfl | rfl := Text.isLineEnd_iff.mp isEnd <;> decide
  have both : Cursor.startsWithText ⟨position, first :: others⟩ "\r\n" =
      decide (first = ofChar '\r' ∧ others.head? = some (ofChar '\n')) := by
    rw [Bool.eq_iff_iff, decide_eq_true_iff]
    cases others with
    | nil => simp [Cursor.startsWithText, Text.ofString, List.isPrefixOf]
    | cons second others =>
        simp [Cursor.startsWithText, Text.ofString, List.isPrefixOf, @eq_comm _ (ofChar '\r'),
          @eq_comm _ (ofChar '\n')]
  simp only [readBlockInside, noMarks, both, isEnd, Bool.false_eq_true, if_false, if_true,
    decide_eq_true_eq, Text.behindLineEnd]
  split
  · exact ⟨position + 2, rfl⟩
  · exact ⟨position + 1, rfl⟩

/-- The inside of a block text is read in the same way at both cursors. Its lines are cut at line
ends of any form, so that the lines of the two texts are the same. -/
theorem readBlockInside_matches {fuel fuel' : Nat} (start start' : Nat) (lines : List Text)
    (line : Text) (enough : left.rest.length < fuel) (enough' : right.rest.length < fuel')
    (unifies : Unifies left right) :
    Matches SameToken (readBlockInside fuel start left lines line)
      (readBlockInside fuel' start' right lines line) := by
  induction fuel generalizing fuel' left right lines line with
  | zero => omega
  | succ fuel inductionHypothesis =>
      obtain _ | fuel' := fuel'
      · omega
      obtain ⟨position, rest⟩ := left
      obtain ⟨position', rest'⟩ := right
      have further {count : Nat} (positive : 0 < count) (within : WithinLine (rest.take count))
          (nonempty : 0 < rest.length) (nonempty' : 0 < rest'.length) (lines : List Text)
          (line : Text) : Matches SameToken
            (readBlockInside fuel start (Cursor.advance ⟨position, rest⟩ count) lines line)
            (readBlockInside fuel' start' (Cursor.advance ⟨position', rest'⟩ count) lines
              line) := by
        refine inductionHypothesis lines line ?_ ?_ (unifies.take_and_drop within).2 <;>
          simp only [Cursor.advance, List.length_drop] at enough enough' ⊢ <;> omega
      cases unifies with
      | nil => exact .error _ _
      | @lineEnd first others right isEnd unified =>
          obtain ⟨next, atLeft⟩ :=
            readBlockInside_lineEnd isEnd fuel start position others lines line
          obtain ⟨next', atRight⟩ := readBlockInside_lineEnd
            (rfl : isLineEnd (ofChar '\n') = true) fuel' start' position' right lines line
          rw [atLeft, atRight, Text.behindLineEnd_feed]
          have shorter := Text.length_behindLineEnd first others
          refine inductionHypothesis _ _ ?_ ?_ unified <;>
            simp only [List.length_cons] at enough enough' ⊢ <;> omega
      | @plain first others others' notEnd unified =>
          have goesOn {count : Nat} (positive : 0 < count)
              (within : WithinLine ((first :: others).take count)) :=
            further positive within (Nat.succ_pos _) (Nat.succ_pos _)
          have whole : Unifies ⟨position, first :: others⟩ ⟨position', first :: others'⟩ :=
            .plain notEnd unified
          have closing : WithinLine (Text.ofString "\"\"\"") := by decide
          have escaped : WithinLine (Text.ofString "\\\"\"\"") := by decide
          have noReturn (position : Nat) (others : Text) :
              Cursor.startsWithText ⟨position, first :: others⟩ "\r\n" = false := by
            refine Cuts.startsWithText_cons ?_
            rintro rfl
            cases notEnd
          simp only [readBlockInside, notEnd, noReturn, ← whole.startsWithText_eq closing,
            ← whole.startsWithText_eq escaped]
          split
          next closes =>
            exact .ok ⟨rfl, (Unifies.moves_text closing closes).unifies whole⟩
          split
          next isEscaped =>
            have four : WithinLine ((first :: others).take 4) :=
              (Unifies.take_of_startsWithText isEscaped).symm ▸ escaped
            have front := whole.take_and_drop four
            have sameMarks : others.take 3 = others'.take 3 := (List.cons.inj front.1).2
            rw [sameMarks]
            exact goesOn (by decide) four _ _
          · refine character_matches notEnd unified _ _ (fun one => goesOn Nat.one_pos one _ _) ?_
            intro two sameSecond
            rw [sameSecond]
            exact goesOn Nat.two_pos two _ _

end Texts

end SchemaOrder.Document
