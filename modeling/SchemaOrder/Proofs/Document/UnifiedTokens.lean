import SchemaOrder.Proofs.Document.UnifiedTexts

/-!
# Tokens of texts with the same line ends

A text and the text with line feeds are cut into tokens of the same kinds, up to a fault in both or
in neither. Blanks and comments end at the same places, and no token but a block text holds a line
end. Every token takes something off the text, so that both readers come to the end.
-/

namespace SchemaOrder.Document

open CodePoint (ofChar)
open Cursor (Unifies Moves)
open Outcome (Matches)
open Text (WithinLine isLineEnd_of_admitted)

variable {left right : Cursor}

/-- Comments end at the same line ends. -/
theorem skipComment_unifies {fuel fuel' : Nat} (enough : left.rest.length ≤ fuel)
    (enough' : right.rest.length ≤ fuel') (unifies : Unifies left right) :
    Unifies (skipComment fuel left) (skipComment fuel' right) := by
  induction fuel generalizing fuel' left right with
  | zero =>
      obtain ⟨position, rest⟩ := left
      obtain rfl := List.eq_nil_of_length_eq_zero (Nat.le_zero.mp enough)
      obtain ⟨position', rest'⟩ := right
      cases unifies
      cases fuel' <;> exact .nil
  | succ fuel inductionHypothesis =>
      obtain ⟨position, rest⟩ := left
      obtain ⟨position', rest'⟩ := right
      cases unifies with
      | nil => cases fuel' <;> exact .nil
      | @lineEnd first others right isEnd unified =>
          obtain _ | fuel' := fuel'
          · cases enough'
          have isFeed : isLineEnd (ofChar '\n') = true := rfl
          simp only [skipComment, isEnd, isFeed, if_true]
          exact .lineEnd isEnd unified
      | @plain first others others' notEnd unified =>
          obtain _ | fuel' := fuel'
          · cases enough'
          have within := withinLine_character notEnd others
          have whole : Unifies ⟨position, first :: others⟩ ⟨position', first :: others'⟩ :=
            .plain notEnd unified
          simp only [skipComment, notEnd, Bool.false_eq_true, if_false,
            ← characterLength_eq (.plain notEnd unified)]
          generalize characterLength (first :: others) = length at within
          cases length with
          | zero => exact whole
          | succ length =>
              refine inductionHypothesis ?_ ?_ (whole.take_and_drop within).2 <;>
                simp only [Cursor.advance, List.length_drop,
                  List.length_cons] at enough enough' ⊢ <;>
                omega

/-- What means nothing between tokens ends at the same place. -/
theorem skipIgnored_unifies {fuel fuel' : Nat} (enough : left.rest.length < fuel)
    (enough' : right.rest.length < fuel') (unifies : Unifies left right) :
    Unifies (skipIgnored fuel left) (skipIgnored fuel' right) := by
  induction fuel generalizing fuel' left right with
  | zero => omega
  | succ fuel inductionHypothesis =>
      obtain _ | fuel' := fuel'
      · omega
      have all : ∀ codePoint, isLineEnd codePoint = true → isIgnored codePoint = true := by
        intro codePoint isEnd
        simp [isIgnored, isEnd]
      have next := unifies.skip all
      have sameStart := next.startsWith_eq '#' rfl
      simp only [skipIgnored, ← sameStart]
      split
      next isComment =>
        have moves := Unifies.moves_one (right.skip isIgnored)
          (rfl : isLineEnd (ofChar '#') = false) isComment
        have shorter := length_behindComment isComment
        have shorter' := length_behindComment (sameStart ▸ isComment)
        refine inductionHypothesis (by omega) (by omega) ?_
        refine skipComment_unifies ?_ ?_ (moves.unifies next) <;> simp [Cursor.advance]
      · exact next

/-- Tokens of the same kinds are read at both cursors. -/
theorem readToken_matches (unifies : Unifies left right) :
    Matches SameToken (readToken left) (readToken right) := by
  obtain ⟨position, rest⟩ := left
  obtain ⟨position', rest'⟩ := right
  cases unifies with
  | nil => exact .ok ⟨rfl, .nil⟩
  | lineEnd isEnd unified =>
      have refused {codePoint : CodePoint} (isEnd : isLineEnd codePoint = true) (position : Nat)
          (others : Text) : ∃ fault, readToken ⟨position, codePoint :: others⟩ = .error fault := by
        obtain rfl | rfl := Text.isLineEnd_iff.mp isEnd <;> exact ⟨_, rfl⟩
      obtain ⟨fault, atLeft⟩ := refused isEnd position _
      obtain ⟨fault', atRight⟩ := refused (rfl : isLineEnd (ofChar '\n') = true) position' _
      rw [atLeft, atRight]
      exact .error _ _
  | @plain first others others' notEnd unified =>
      have whole : Unifies ⟨position, first :: others⟩ ⟨position', first :: others'⟩ :=
        .plain notEnd unified
      have marks : WithinLine (Text.ofString "\"\"\"") := by decide
      have points : WithinLine (Text.ofString "...") := by decide
      simp only [readToken, ← whole.startsWithText_eq marks, ← whole.startsWithText_eq points]
      split
      next opens =>
        have enough {first : CodePoint} {others : Text} {position : Nat}
            (opens : Cursor.startsWithText ⟨position, first :: others⟩ "\"\"\"" = true) :
            (Cursor.advance ⟨position, first :: others⟩ 3).rest.length < others.length := by
          have long := congrArg List.length (Unifies.take_of_startsWithText opens)
          have three : (Text.ofString "\"\"\"").length = 3 := rfl
          simp only [List.length_take, List.length_cons, three] at long
          simp only [Cursor.advance, List.length_drop, List.length_cons]
          omega
        exact readBlockInside_matches _ _ _ _ (enough opens)
          (enough (whole.startsWithText_eq marks ▸ opens))
          ((Unifies.moves_text marks opens).unifies whole)
      split
      · exact readInside_matches _ _ _ (Nat.lt_succ_self _) (Nat.lt_succ_self _) unified
      split
      · exact readNumber_matches whole
      split
      · have noEnds := isLineEnd_of_admitted CodePoint.isNameContinue rfl rfl
        have sameName := whole.takeWhile_eq noEnds
        exact .ok ⟨congrArg TokenKind.name sameName, (whole.moves_skip noEnds).unifies whole⟩
      split
      next spreads => exact .ok ⟨rfl, (Unifies.moves_text points spreads).unifies whole⟩
      · cases Mark.ofCodePoint? first with
        | some sign => exact .ok ⟨rfl, unified⟩
        | none => exact .error _ _

/-- There is less to read by as many code points as are passed by. -/
theorem length_advance (cursor : Cursor) (count : Nat) :
    (cursor.advance count).rest.length = cursor.rest.length - count :=
  List.length_drop

/-- Digits are at least one code point. -/
theorem length_readDigits {cursor next : Cursor} (read : readDigits cursor = .ok next) :
    next.rest.length < cursor.rest.length := by
  obtain ⟨position, _ | ⟨first, others⟩⟩ := cursor
  · cases read
  · simp only [readDigits, List.head?_cons] at read
    split at read
    next isDigit =>
      cases read
      simp only [Cursor.skip, List.takeWhile_cons, isDigit, if_true, length_advance,
        List.length_cons]
      omega
    · cases read

/-- So is a whole number. -/
theorem length_readWhole {cursor next : Cursor} (read : readWhole cursor = .ok next) :
    next.rest.length < cursor.rest.length := by
  unfold readWhole at read
  split at read
  next isZero =>
    have isNext : next = cursor.advance 1 := by
      dsimp only at read
      split at read
      · split at read <;> cases read
        rfl
      · cases read
        rfl
    obtain ⟨position, _ | ⟨first, others⟩⟩ := cursor
    · cases isZero
    · rw [isNext]
      exact Nat.lt_succ_self _
  · exact length_readDigits read

/-- There is no more to read behind a mark than in front of it. -/
theorem length_behindMark (first second : Char) (cursor : Cursor) :
    (behindMark first second cursor).rest.length ≤ cursor.rest.length := by
  unfold behindMark
  split
  · rw [length_advance]
    exact Nat.sub_le _ _
  · exact Nat.le_refl _

/-- And so is a number. -/
theorem length_readNumber {cursor next : Cursor} {token : Token}
    (read : readNumber cursor = .ok (token, next)) :
    next.rest.length < cursor.rest.length := by
  rw [readNumber_eq] at read
  obtain ⟨whole, isWhole, read⟩ := Outcome.bind_eq_ok_iff.mp read
  obtain ⟨fraction, isFraction, read⟩ := Outcome.bind_eq_ok_iff.mp read
  obtain ⟨finish, isFinish, read⟩ := Outcome.bind_eq_ok_iff.mp read
  have beyondSign := length_behindMark '-' '-' cursor
  have beyondWhole := length_readWhole isWhole
  have beyondFraction : fraction.rest.length ≤ whole.rest.length := by
    unfold readFraction at isFraction
    split at isFraction
    · have digits := length_readDigits isFraction
      rw [length_advance] at digits
      omega
    · cases isFraction
      exact Nat.le_refl _
  have beyondExponent : finish.rest.length ≤ fraction.rest.length := by
    unfold readOptionalExponent at isFinish
    split at isFinish
    · have digits := length_readDigits isFinish
      have sign := length_behindMark '+' '-' (fraction.advance 1)
      rw [length_advance] at sign
      omega
    · cases isFinish
      exact Nat.le_refl _
  have isNext : next = finish := by
    unfold finishNumber at read
    dsimp only at read
    split at read
    · split at read <;> cases read
      rfl
    · cases read
      rfl
  rw [isNext]
  omega

/-- The inside of a text leaves no more than there was. -/
theorem length_readInside {fuel start : Nat} {cursor next : Cursor} {known : Text} {token : Token}
    (read : readInside fuel start cursor known = .ok (token, next)) :
    next.rest.length ≤ cursor.rest.length := by
  induction fuel generalizing cursor known with
  | zero => cases read
  | succ fuel inductionHypothesis =>
      obtain ⟨position, _ | ⟨first, rest⟩⟩ := cursor
      · cases read
      have further {count : Nat} {known : Text}
          (read : readInside fuel start (Cursor.advance ⟨position, first :: rest⟩ count) known =
            .ok (token, next)) : next.rest.length ≤ (first :: rest).length :=
        (inductionHypothesis read).trans (length_advance _ _ ▸ Nat.sub_le _ _)
      simp only [readInside] at read
      split at read
      · cases read
        exact Nat.le_succ _
      split at read
      · split at read
        · cases read
        · exact further read
      split at read
      · cases read
      split at read
      · cases read
      · exact further read
      · exact further read

/-- So does the inside of a block text. -/
theorem length_readBlockInside {fuel start : Nat} {cursor next : Cursor} {lines : List Text}
    {line : Text} {token : Token}
    (read : readBlockInside fuel start cursor lines line = .ok (token, next)) :
    next.rest.length ≤ cursor.rest.length := by
  induction fuel generalizing cursor lines line with
  | zero => cases read
  | succ fuel inductionHypothesis =>
      obtain ⟨position, _ | ⟨first, rest⟩⟩ := cursor
      · cases read
      have further {count : Nat} {lines : List Text} {line : Text}
          (read : readBlockInside fuel start (Cursor.advance ⟨position, first :: rest⟩ count) lines
            line = .ok (token, next)) : next.rest.length ≤ (first :: rest).length :=
        (inductionHypothesis read).trans (length_advance _ _ ▸ Nat.sub_le _ _)
      simp only [readBlockInside] at read
      split at read
      · cases read
        exact length_advance _ _ ▸ Nat.sub_le _ _
      split at read
      · exact further read
      split at read
      · exact further read
      split at read
      · exact further read
      split at read
      · cases read
      · exact further read
      · exact further read

/-- A token takes something off the text, unless it is the end. -/
theorem length_readToken {cursor next : Cursor} {token : Token}
    (read : readToken cursor = .ok (token, next)) (notEnd : token.kind ≠ .endOfDocument) :
    next.rest.length < cursor.rest.length := by
  obtain ⟨position, _ | ⟨first, rest⟩⟩ := cursor
  · cases read
    exact absurd rfl notEnd
  have beyond (count : Nat) :
      (Cursor.advance ⟨position, first :: rest⟩ (count + 1)).rest.length <
        (first :: rest).length := by
    rw [length_advance]
    exact Nat.sub_lt (Nat.succ_pos _) (Nat.succ_pos _)
  simp only [readToken] at read
  split at read
  · exact (length_readBlockInside read).trans_lt (beyond 2)
  split at read
  · exact (length_readInside read).trans_lt (beyond 0)
  split at read
  · exact length_readNumber read
  split at read
  next isStart =>
    cases read
    rw [List.takeWhile_cons_of_pos (CodePoint.isNameContinue_of_isNameStart isStart)]
    exact beyond _
  split at read
  · cases read
    exact beyond 2
  split at read
  · cases read
    exact beyond 0
  · cases read

/-- What means nothing between tokens is taken off. -/
theorem length_skipIgnored (fuel : Nat) (cursor : Cursor) :
    (skipIgnored fuel cursor).rest.length ≤ cursor.rest.length := by
  induction fuel generalizing cursor with
  | zero => exact Nat.le_refl _
  | succ fuel inductionHypothesis =>
      simp only [skipIgnored]
      split
      next isComment =>
        exact (inductionHypothesis _).trans (length_behindComment isComment).le
      · exact length_advance _ _ ▸ Nat.sub_le _ _

/-- The kinds of tokens, and whether something cannot be read behind them. -/
def TokenStream.shape (stream : TokenStream) : List TokenKind × Bool :=
  (stream.tokens.map Token.kind, stream.fault.isSome)

/-- Two texts with the same line ends have tokens of the same kinds. -/
theorem shape_readTokens {fuel fuel' : Nat} {known known' : List Token}
    (enough : left.rest.length < fuel) (enough' : right.rest.length < fuel')
    (unifies : Unifies left right) (sameKnown : known.map Token.kind = known'.map Token.kind) :
    (readTokens fuel left known).shape = (readTokens fuel' right known').shape := by
  induction fuel generalizing fuel' left right known known' with
  | zero => omega
  | succ fuel inductionHypothesis =>
      obtain _ | fuel' := fuel'
      · omega
      have tokens := readToken_matches (skipIgnored_unifies (Nat.lt_succ_self left.rest.length)
        (Nat.lt_succ_self right.rest.length) unifies)
      have skipped := length_skipIgnored (left.rest.length + 1) left
      have skipped' := length_skipIgnored (right.rest.length + 1) right
      simp only [readTokens]
      cases read : readToken (skipIgnored (left.rest.length + 1) left) with
      | error fault =>
          cases read' : readToken (skipIgnored (right.rest.length + 1) right) with
          | error fault' => simp [TokenStream.shape, sameKnown]
          | ok result =>
              rw [read, read'] at tokens
              cases tokens
      | ok result =>
          cases read' : readToken (skipIgnored (right.rest.length + 1) right) with
          | error fault' =>
              rw [read, read'] at tokens
              cases tokens
          | ok result' =>
              obtain ⟨token, next⟩ := result
              obtain ⟨token', next'⟩ := result'
              obtain ⟨sameKind, further⟩ := tokens.of_ok read read'
              have together : (token :: known).map Token.kind =
                  (token' :: known').map Token.kind := by
                rw [List.map_cons, List.map_cons, sameKnown, sameKind]
              dsimp only at sameKind ⊢
              by_cases isEnd : token.kind = .endOfDocument
              · rw [if_pos isEnd, if_pos (sameKind ▸ isEnd)]
                simp only [TokenStream.shape, List.map_reverse, together]
              · have shorter := length_readToken read isEnd
                have shorter' := length_readToken read' (sameKind ▸ isEnd)
                rw [if_neg isEnd, if_neg (sameKind ▸ isEnd)]
                exact inductionHypothesis (by omega) (by omega) further together

/-- So have a text and the text with line feeds. -/
theorem shape_ofText_unifyLineEnds (text : Text) :
    (TokenStream.ofText (Text.unifyLineEnds text)).shape = (TokenStream.ofText text).shape := by
  have unifies : Unifies (Cursor.start text) (Cursor.start (Text.unifyLineEnds text)) :=
    Text.unifies_unifyLineEnds text
  exact (shape_readTokens (Nat.lt_succ_self _) (Nat.lt_succ_self _) unifies rfl).symm

end SchemaOrder.Document
