import Mathlib.Data.List.Infix
import SchemaOrder.Document.Lexer

/-!
# Cutting a text that is put together

A text that is put together of pieces is cut into the tokens of the pieces, as long as no
piece runs on into the next one. `Cuts` says so of one piece and what stands behind it. A piece
may hold a surrogate that ends the tokens with a fault; then the tokens in front of it are
still those of the pieces.
-/

namespace SchemaOrder.Document

open CodePoint (ofChar)

/-- Comments are skipped in at most as many steps as there are code points. -/
theorem length_skipComment (fuel : Nat) (cursor : Cursor) :
    (skipComment fuel cursor).rest.length ≤ cursor.rest.length := by
  induction fuel generalizing cursor with
  | zero => exact Nat.le_refl _
  | succ fuel inductionHypothesis =>
      obtain ⟨position, rest⟩ := cursor
      cases rest with
      | nil => exact Nat.le_refl _
      | cons codePoint rest =>
          simp only [skipComment]
          split
          · exact Nat.le_refl _
          · split
            · exact Nat.le_refl _
            · refine (inductionHypothesis _).trans ?_
              simp [Cursor.advance]

/-- Behind a comment there is less of the text left. -/
theorem length_behindComment {cursor : Cursor}
    (isComment : (cursor.skip isIgnored).startsWith '#' = true) :
    (skipComment (cursor.skip isIgnored).rest.length
        ((cursor.skip isIgnored).advance 1)).rest.length <
      cursor.rest.length := by
  have nonempty : 0 < (cursor.skip isIgnored).rest.length := by
    cases rest : (cursor.skip isIgnored).rest with
    | nil => simp [Cursor.startsWith, rest] at isComment
    | cons => simp
  have shorter := length_skipComment (cursor.skip isIgnored).rest.length
    ((cursor.skip isIgnored).advance 1)
  have skipped : (cursor.skip isIgnored).rest.length ≤ cursor.rest.length := by
    simp [Cursor.skip, Cursor.advance]
  simp only [Cursor.advance, List.length_drop] at shorter
  simp only [Cursor.advance]
  omega

/-- What is skipped does not depend on the fuel, as long as there is enough. -/
theorem skipIgnored_eq (fuel fuel' : Nat) (cursor : Cursor) (enough : cursor.rest.length < fuel)
    (enough' : cursor.rest.length < fuel') :
    skipIgnored fuel cursor = skipIgnored fuel' cursor := by
  induction fuel generalizing fuel' cursor with
  | zero => omega
  | succ fuel inductionHypothesis =>
      obtain _ | fuel' := fuel'
      · omega
      · simp only [skipIgnored]
        split
        next isComment =>
          have shorter := length_behindComment isComment
          apply inductionHypothesis <;> omega
        · rfl

/-- The pieces of a text are cut on their own: the tokens of `text`, in front of `rest`, are of
the given kinds, or the first ones are and then there is a fault. -/
def Cuts (text rest : Text) (kinds : List TokenKind) : Prop :=
  ∀ fuel position known, (text ++ rest).length < fuel → ∃ tokens : List Token,
    (tokens.map Token.kind = kinds ∧ ∃ fuel' position', rest.length < fuel' ∧
      readTokens fuel ⟨position, text ++ rest⟩ known =
        readTokens fuel' ⟨position', rest⟩ (tokens.reverse ++ known)) ∨
    (tokens.map Token.kind <+: kinds ∧ ∃ fault,
      readTokens fuel ⟨position, text ++ rest⟩ known = ⟨known.reverse ++ tokens, some fault⟩)

namespace Cuts

variable {text first second rest : Text} {kinds firstKinds secondKinds : List TokenKind}

/-- Nothing is cut into no tokens. -/
theorem nil (rest : Text) : Cuts [] rest [] := by
  intro fuel position known enough
  exact ⟨[], .inl ⟨rfl, fuel, position, enough, rfl⟩⟩

/-- Two pieces are cut one after the other. -/
theorem append (cutsFirst : Cuts first (second ++ rest) firstKinds)
    (cutsSecond : Cuts second rest secondKinds) :
    Cuts (first ++ second) rest (firstKinds ++ secondKinds) := by
  intro fuel position known enough
  rw [List.append_assoc] at enough ⊢
  obtain ⟨tokens, ⟨sameKinds, fuel', position', enough', read⟩ | ⟨isPrefix, fault, read⟩⟩ :=
    cutsFirst fuel position known enough
  · obtain ⟨others, ⟨otherKinds, fuel'', position'', enough'', readOthers⟩ |
      ⟨isPrefix, fault, readOthers⟩⟩ := cutsSecond fuel' position' (tokens.reverse ++ known) enough'
    · refine ⟨tokens ++ others, .inl ⟨by simp [sameKinds, otherKinds], fuel'', position'',
        enough'', ?_⟩⟩
      rw [read, readOthers]
      simp
    · refine ⟨tokens ++ others, .inr ⟨?_, fault, ?_⟩⟩
      · rw [List.map_append, sameKinds]
        exact (List.prefix_append_right_inj _).mpr isPrefix
      · rw [read, readOthers]
        simp
  · exact ⟨tokens, .inr ⟨isPrefix.trans (List.prefix_append _ _), fault, read⟩⟩

/-- What means nothing between tokens makes no token. -/
theorem ignored (allIgnored : ∀ codePoint ∈ text, isIgnored codePoint = true) (rest : Text) :
    Cuts text rest [] := by
  intro fuel position known enough
  cases fuel with
  | zero => omega
  | succ fuel =>
      refine ⟨[], .inl ⟨rfl, fuel + 1, position + text.length, by simp at enough ⊢; omega, ?_⟩⟩
      have skipped : (⟨position, text ++ rest⟩ : Cursor).skip isIgnored =
          (⟨position + text.length, rest⟩ : Cursor).skip isIgnored := by
        simp only [Cursor.skip, Cursor.advance, List.takeWhile_append_of_pos allIgnored,
          List.length_append, Nat.add_assoc, List.drop_append, List.drop_of_length_le
            (Nat.le_add_right _ _), Nat.add_sub_cancel_left, List.nil_append]
      have same : skipIgnored ((text ++ rest).length + 1) ⟨position, text ++ rest⟩ =
          skipIgnored (rest.length + 1) ⟨position + text.length, rest⟩ := by
        rw [skipIgnored_eq (rest.length + 1) ((text ++ rest).length + 1)
          ⟨position + text.length, rest⟩ (by simp) (by simp only [List.length_append]; omega)]
        simp only [skipIgnored, skipped]
      simp only [readTokens, same, List.reverse_nil, List.nil_append]

/-- A token is cut off where it is read, or it is not read at all. -/
theorem token {kind : TokenKind} {head : CodePoint} {tail : Text} (notEnd : kind ≠ .endOfDocument)
    (notIgnored : isIgnored head = false) (notComment : head ≠ ofChar '#')
    (read : ∀ position, (∃ next, readToken ⟨position, head :: tail ++ rest⟩ =
        .ok (⟨kind, position⟩, ⟨next, rest⟩)) ∨
      ∃ fault, readToken ⟨position, head :: tail ++ rest⟩ = .error fault) :
    Cuts (head :: tail) rest [kind] := by
  intro fuel position known enough
  cases fuel with
  | zero => omega
  | succ fuel =>
      have here : ∀ fuel, skipIgnored (fuel + 1) ⟨position, head :: tail ++ rest⟩ =
          ⟨position, head :: tail ++ rest⟩ := by
        intro fuel
        simp [skipIgnored, Cursor.skip, Cursor.advance, notIgnored, Cursor.startsWith, notComment]
      rcases read position with ⟨next, read⟩ | ⟨fault, read⟩
      · refine ⟨[⟨kind, position⟩], .inl ⟨rfl, fuel, next, ?_, ?_⟩⟩
        · simp at enough
          omega
        · simp only [readTokens, here, read, if_neg notEnd]
          rfl
      · refine ⟨[], .inr ⟨List.nil_prefix, fault, ?_⟩⟩
        simp only [readTokens, here, read, List.append_nil]

/-- A mark is a token by itself. -/
theorem mark (sign : Mark) (rest : Text) : Cuts sign.text rest [.mark sign] := by
  cases sign <;> exact token nofun (by decide) (by decide) fun position => .inl ⟨_, rfl⟩

end Cuts

/-- A text that is a name of the schema language. -/
def IsName : Text → Prop
  | [] => False
  | first :: others =>
    first.isNameStart = true ∧ ∀ codePoint ∈ others, codePoint.isNameContinue = true

instance : DecidablePred IsName
  | [] => inferInstanceAs (Decidable False)
  | first :: others => inferInstanceAs (Decidable (first.isNameStart = true ∧
      ∀ codePoint ∈ others, codePoint.isNameContinue = true))

/-- Every code point of a name may stand in one. -/
theorem IsName.continues {name : Text} (isName : IsName name) :
    ∀ codePoint ∈ name, codePoint.isNameContinue = true := by
  match name, isName with
  | first :: others, ⟨isStart, areNames⟩ =>
      rintro codePoint (_ | ⟨_, mem⟩)
      · exact CodePoint.isNameContinue_of_isNameStart isStart
      · exact areNames codePoint mem

/-- There is no carriage return in a name. -/
theorem IsName.noReturn {name : Text} (isName : IsName name) : ofChar '\r' ∉ name :=
  fun mem => absurd (isName.continues _ mem) (by decide)

/-- A text that does not go on with a name, a number or a text where one has ended. -/
def Apart (rest : Text) : Prop :=
  ∀ codePoint ∈ rest.head?, codePoint.isNameContinue = false ∧ codePoint ≠ ofChar '.' ∧
    codePoint ≠ ofChar '"'

/-- The end of a document stands apart. -/
theorem Apart.nil : Apart [] :=
  nofun

/-- Whether a text ends a name, a number or a text in front of it. -/
def endsToken : Text → Bool
  | [] => false
  | head :: _ => !head.isNameContinue && head ≠ ofChar '.' && head ≠ ofChar '"'

/-- So does a text that ends what is in front of it. -/
theorem Apart.of_endsToken {text : Text} (ends : endsToken text = true) : Apart text := by
  cases text with
  | nil => exact .nil
  | cons head tail =>
      rintro codePoint ⟨⟩
      simpa [endsToken, and_assoc] using ends

/-- What stands apart also does so in front of something that does. -/
theorem Apart.append {first second : Text} (apart : Apart first) (others : Apart second) :
    Apart (first ++ second) := by
  cases first with
  | nil => exact others
  | cons head tail => exact apart

namespace Cuts

variable {rest : Text}

/-- A text begins with another one only if it begins with the same code point. -/
theorem startsWithText_cons {position : Nat} {head first : CodePoint} {tail others : Text}
    (differ : head ≠ first) :
    Cursor.startsWithText ⟨position, head :: tail⟩ (first :: others) = false := by
  simp [Cursor.startsWithText, List.isPrefixOf, Ne.symm differ]

/-- What begins a name begins nothing else. -/
theorem ne_of_isNameStart {codePoint other : CodePoint} (isStart : codePoint.isNameStart = true)
    (otherwise : other.isNameStart = false) : codePoint ≠ other := by
  rintro rfl
  rw [otherwise] at isStart
  cases isStart

/-- What begins a name is no digit. -/
theorem isDigit_of_isNameStart {codePoint : CodePoint} (isStart : codePoint.isNameStart = true) :
    codePoint.isDigit = false := by
  simp [CodePoint.isNameStart, CodePoint.isLetter, CodePoint.isWithin, CodePoint.isDigit] at *
  omega

/-- Nor is it ignored between tokens. -/
theorem isIgnored_of_isNameStart {codePoint : CodePoint} (isStart : codePoint.isNameStart = true) :
    isIgnored codePoint = false := by
  simp [CodePoint.isNameStart, CodePoint.isLetter, CodePoint.isWithin, isIgnored, isLineEnd,
    CodePoint.isBlank] at *
  omega

/-- A name is cut off where something stands that cannot go on with it. -/
theorem name {name : Text} (isName : IsName name) (apart : Apart rest) :
    Cuts name rest [.name name] := by
  match name, isName with
  | first :: others, ⟨isStart, areNames⟩ =>
      have whole : ((first :: others) ++ rest).takeWhile CodePoint.isNameContinue =
          first :: others := by
        have whole : IsName (first :: others) := ⟨isStart, areNames⟩
        rw [List.takeWhile_append_of_pos whole.continues]
        cases rest with
        | nil => simp
        | cons head tail => simp [(apart head rfl).1]
      have notQuote : first ≠ ofChar '"' := ne_of_isNameStart isStart rfl
      refine token nofun (isIgnored_of_isNameStart isStart) (ne_of_isNameStart isStart rfl)
        fun position => .inl ⟨position + (first :: others).length, ?_⟩
      have noBlock : Cursor.startsWithText ⟨position, first :: (others ++ rest)⟩ "\"\"\"" = false :=
        startsWithText_cons notQuote
      have noMinus : first ≠ ofChar '-' := ne_of_isNameStart isStart rfl
      rw [List.cons_append] at whole ⊢
      simp only [readToken, noBlock, notQuote, isDigit_of_isNameStart isStart, noMinus, isStart,
        whole, Bool.false_eq_true, if_false, if_true, decide_false, Bool.or_false]
      simp [Cursor.advance]

end Cuts

end SchemaOrder.Document
