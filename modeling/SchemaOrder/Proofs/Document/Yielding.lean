import SchemaOrder.Proofs.Document.Applications

/-!
# What readers yield

The names among the tokens of a text are names of the schema language, and the integers are digits,
behind a sign if anything. `Yields` says of a reader that it leaves such tokens behind it and that
what it gives has a property. Other than `Reads` it does not say which tokens are taken, so that it
holds of every reader on every document.
-/

namespace SchemaOrder.Document

open Outcome (bind_eq_ok_iff map_eq_ok_iff)
open CodePoint (ofChar)

/-- A token that is a name spells a name of the schema language, and one that is an integer
spells an integer. -/
def TokenKind.IsSpelled : TokenKind → Prop
  | .name content => IsName content
  | .integer digits => IsInteger digits
  | _ => True

/-- What is read inside a text is a text. -/
theorem kind_of_readInside {fuel start : Nat} {cursor next : Cursor} {known : Text} {token : Token}
    (read : readInside fuel start cursor known = .ok (token, next)) :
    ∃ content, token.kind = .text content := by
  induction fuel generalizing cursor known with
  | zero => cases read
  | succ fuel inductionHypothesis =>
      obtain ⟨position, _ | ⟨first, rest⟩⟩ := cursor
      · cases read
      · simp only [readInside] at read
        split at read
        · cases read
          exact ⟨_, rfl⟩
        · split at read
          · split at read
            · cases read
            · exact inductionHypothesis read
          · split at read
            · cases read
            · split at read
              · cases read
              · exact inductionHypothesis read
              · exact inductionHypothesis read

/-- What is read inside a block text is a block text. -/
theorem kind_of_readBlockInside {fuel start : Nat} {cursor next : Cursor} {lines : List Text}
    {line : Text} {token : Token}
    (read : readBlockInside fuel start cursor lines line = .ok (token, next)) :
    ∃ content, token.kind = .block content := by
  induction fuel generalizing cursor lines line with
  | zero => cases read
  | succ fuel inductionHypothesis =>
      obtain ⟨position, _ | ⟨first, rest⟩⟩ := cursor
      · cases read
      · simp only [readBlockInside] at read
        split at read
        · cases read
          exact ⟨_, rfl⟩
        · split at read
          · exact inductionHypothesis read
          · split at read
            · exact inductionHypothesis read
            · split at read
              · exact inductionHypothesis read
              · split at read
                · cases read
                · exact inductionHypothesis read
                · exact inductionHypothesis read

/-- The place behind digits that were read. -/
def IsBehindDigits (cursor next : Cursor) : Prop :=
  ∃ digits, IsDigits digits ∧ cursor.rest = digits ++ next.rest ∧
    next.position = cursor.position + digits.length

/-- Where digits are read, the lexer is behind digits. -/
theorem isBehindDigits_of_readDigits {cursor next : Cursor} (read : readDigits cursor = .ok next) :
    IsBehindDigits cursor next := by
  obtain ⟨position, _ | ⟨first, rest⟩⟩ := cursor
  · cases read
  simp only [readDigits, List.head?_cons] at read
  split at read
  · next isDigit =>
      cases read
      have all := List.all_eq_true.mp
        (List.all_takeWhile (p := CodePoint.isDigit) (l := first :: rest))
      refine ⟨(first :: rest).takeWhile CodePoint.isDigit, ⟨?_, all⟩, ?_, rfl⟩
      · rw [List.takeWhile_cons_of_pos isDigit]
        exact List.cons_ne_nil _ _
      · exact (List.prefix_iff_eq_append.mp (List.takeWhile_prefix _)).symm
  · cases read

/-- It is behind digits where a whole number is read, be it zero or a number without leading zeros.
-/
theorem isBehindDigits_of_readWhole {cursor next : Cursor} (read : readWhole cursor = .ok next) :
    IsBehindDigits cursor next := by
  unfold readWhole at read
  split at read
  · next isZero =>
      obtain ⟨position, _ | ⟨first, rest⟩⟩ := cursor
      · cases isZero
      obtain rfl : first = ofChar '0' := of_decide_eq_true isZero
      obtain rfl : (⟨position, ofChar '0' :: rest⟩ : Cursor).advance 1 = next := by
        dsimp only at read
        split at read
        · split at read
          · cases read
          · exact Except.ok.inj read
        · exact Except.ok.inj read
      exact ⟨[ofChar '0'], ⟨List.cons_ne_nil _ _, List.forall_mem_singleton.mpr rfl⟩, rfl, rfl⟩
  · exact isBehindDigits_of_readDigits read

/-- The digits up to where the digits before a decimal point end are an integer. -/
theorem isInteger_take {cursor whole : Cursor}
    (behind : IsBehindDigits (if cursor.startsWith '-' then cursor.advance 1 else cursor) whole) :
    IsInteger (cursor.rest.take (whole.position - cursor.position)) := by
  obtain ⟨position, rest⟩ := cursor
  obtain ⟨digits, areDigits, isRest, isPosition⟩ := behind
  split at isRest
  · next isSigned =>
      obtain _ | ⟨first, rest⟩ := rest
      · cases isSigned
      obtain rfl : first = ofChar '-' := of_decide_eq_true isSigned
      rw [if_pos isSigned] at isPosition
      refine ⟨[ofChar '-'], digits, ?_, .inr rfl, areDigits⟩
      have length : whole.position - position = digits.length + 1 := by
        simp only [Cursor.advance] at isPosition
        omega
      have isRest : rest = digits ++ whole.rest := isRest
      rw [length, List.take_succ_cons, isRest, List.take_left]
      rfl
  · next notSigned =>
      rw [if_neg notSigned] at isPosition
      refine ⟨[], digits, ?_, .inl rfl, areDigits⟩
      have isRest : rest = digits ++ whole.rest := isRest
      rw [isPosition, Nat.add_sub_cancel_left, isRest, List.take_left, List.nil_append]

/-- What is read as a number is one, and an integer is digits behind its sign. -/
theorem kind_of_readNumber {cursor next : Cursor} {token : Token}
    (read : readNumber cursor = .ok (token, next)) :
    ∃ digits, (token.kind = .integer digits ∧ IsInteger digits) ∨ token.kind = .float digits := by
  unfold readNumber at read
  obtain ⟨whole, isWhole, read⟩ := bind_eq_ok_iff.mp read
  dsimp only at read
  have isInteger := isInteger_take (isBehindDigits_of_readWhole isWhole)
  have kind : ∀ finish : Cursor, ∃ shown,
      ((if finish.position = whole.position then
          TokenKind.integer (cursor.rest.take (finish.position - cursor.position))
        else .float (cursor.rest.take (finish.position - cursor.position))) = .integer shown ∧
          IsInteger shown) ∨
        (if finish.position = whole.position then
          TokenKind.integer (cursor.rest.take (finish.position - cursor.position))
        else .float (cursor.rest.take (finish.position - cursor.position))) = .float shown := by
    intro finish
    split
    · next atWhole => exact ⟨_, .inl ⟨rfl, atWhole ▸ isInteger⟩⟩
    · exact ⟨_, .inr rfl⟩
  -- With or without a fraction, with or without an exponent, the number ends in the same way.
  split at read <;> obtain ⟨fraction, -, read⟩ := bind_eq_ok_iff.mp read <;> split at read <;>
    obtain ⟨finish, -, read⟩ := bind_eq_ok_iff.mp read
  all_goals
    split at read
    · split at read <;> cases read
      exact kind _
    · cases read
      exact kind _
/-- The code points that go on with a name, behind one that begins it, are a name. -/
theorem isName_takeWhile {first : CodePoint} (rest : Text) (isStart : first.isNameStart = true) :
    IsName ((first :: rest).takeWhile CodePoint.isNameContinue) := by
  rw [List.takeWhile_cons_of_pos (CodePoint.isNameContinue_of_isNameStart isStart)]
  have all := List.all_eq_true.mp (List.all_takeWhile (p := CodePoint.isNameContinue) (l := rest))
  exact ⟨isStart, all⟩

/-- A token that is read as a name or as an integer is one. -/
theorem isSpelled_of_readToken {cursor next : Cursor} {token : Token}
    (read : readToken cursor = .ok (token, next)) : token.kind.IsSpelled := by
  unfold readToken at read
  split at read
  · cases read
    trivial
  · rename_i first rest isRest
    split at read
    · obtain ⟨content, isBlock⟩ := kind_of_readBlockInside read
      rw [isBlock]
      trivial
    · split at read
      · obtain ⟨content, isText⟩ := kind_of_readInside read
        rw [isText]
        trivial
      · split at read
        · obtain ⟨digits, ⟨isKind, isInteger⟩ | isFloat⟩ := kind_of_readNumber read
          · rw [isKind]
            exact isInteger
          · rw [isFloat]
            trivial
        · split at read
          · rename_i isStart
            cases read
            rw [isRest]
            exact isName_takeWhile rest isStart
          · split at read
            · cases read
              trivial
            · split at read
              · cases read
                trivial
              · cases read

/-- Tokens that are read spell names, if those before them do. -/
theorem isSpelled_of_readTokens (fuel : Nat) (cursor : Cursor) {known : List Token}
    (areSpelled : ∀ token ∈ known, token.kind.IsSpelled) :
    ∀ token ∈ (readTokens fuel cursor known).tokens, token.kind.IsSpelled := by
  induction fuel generalizing cursor known with
  | zero => exact fun token mem => areSpelled token (List.mem_reverse.mp mem)
  | succ fuel inductionHypothesis =>
      unfold readTokens
      split
      · exact fun token mem => areSpelled token (List.mem_reverse.mp mem)
      · rename_i token next read
        have withToken : ∀ other ∈ token :: known, other.kind.IsSpelled :=
          List.forall_mem_cons.mpr ⟨isSpelled_of_readToken read, areSpelled⟩
        split
        · exact fun other mem => withToken other (List.mem_reverse.mp mem)
        · exact inductionHypothesis next withToken

/-- The tokens ahead spell names. -/
def Input.IsSpelled (input : Input) : Prop :=
  ∀ token ∈ input.current :: input.following, token.kind.IsSpelled

/-- Where a reader succeeds on tokens that spell names, it leaves such tokens and gives something
that has the property. -/
def Yields {α : Type} (reader : Reader α) (property : α → Prop) : Prop :=
  ∀ input read next, input.IsSpelled → reader.run input = .ok (read, next) →
    next.IsSpelled ∧ property read

namespace Yields

variable {α β : Type} {reader : Reader α} {property : α → Prop}

/-- What a reader yields has every weaker property, too. -/
theorem weaken {weaker : α → Prop} (yields : Yields reader property)
    (implies : ∀ read, property read → weaker read) : Yields reader weaker :=
  fun input read next spelled given =>
    (yields input read next spelled given).imp_right (implies read)

/-- What is given at once leaves the tokens as they are. -/
theorem pure {value : α} (holds : property value) : Yields (pure value) property := by
  intro input read next spelled given
  cases given
  exact ⟨spelled, holds⟩

/-- A reader that goes on with what another one has read yields what the second one yields. -/
theorem bind {following : α → Reader β} {result : β → Prop} (first : Yields reader property)
    (second : ∀ read, property read → Yields (following read) result) :
    Yields (reader >>= following) result := by
  intro input read next spelled given
  obtain ⟨middle, state, givenFirst, givenSecond⟩ := run_bind_eq_ok given
  obtain ⟨spelledSecond, holds⟩ := first input middle state spelled givenFirst
  exact second middle holds state read next spelledSecond givenSecond

/-- A reader yields what becomes of what another one has read. -/
theorem map {change : α → β} {result : β → Prop} (yields : Yields reader property)
    (becomes : ∀ read, property read → result (change read)) :
    Yields (do return change (← reader)) result :=
  yields.bind fun read holds => pure (becomes read holds)

/-- One of two readers. -/
theorem ite {condition : Prop} [Decidable condition] {first second : Reader α}
    (yieldsFirst : condition → Yields first property)
    (yieldsSecond : ¬ condition → Yields second property) :
    Yields (if condition then first else second) property := by
  split
  · exact yieldsFirst ‹_›
  · exact yieldsSecond ‹_›

/-- A reader that fails yields nothing, so that it yields whatever one likes. -/
theorem failAt (position : Nat) (cause : Malformation) :
    Yields (Reader.failAt position cause : Reader α) property :=
  fun _ _ _ _ given => nomatch given

/-- A reader that did not expect the token in front of it yields nothing. -/
theorem unexpected : Yields (Reader.unexpected : Reader α) property :=
  fun _ _ _ _ given => nomatch given

/-- The token in front of a reader is spelled as its kind says. -/
theorem current : Yields Reader.current fun token => token.kind.IsSpelled := by
  intro input read next spelled given
  cases given
  exact ⟨spelled, spelled _ List.mem_cons_self⟩

/-- The number of tokens leaves them as they are. -/
theorem bound : Yields Reader.bound fun _ => True := by
  intro input read next spelled given
  cases given
  exact ⟨spelled, trivial⟩

/-- The token behind the one in front is spelled as its kind says. -/
theorem lookAhead : Yields Reader.lookAhead fun token => token.kind.IsSpelled := by
  intro input read next spelled given
  obtain ⟨token, tokens, fault, depth⟩ := input
  cases tokens with
  | nil =>
      cases fault <;> cases given
      exact ⟨spelled, spelled _ List.mem_cons_self⟩
  | cons second others =>
      cases fault <;> cases given <;>
        exact ⟨spelled, spelled _ (List.mem_cons_of_mem _ List.mem_cons_self)⟩

/-- Behind the token in front the others spell names. -/
theorem advance : Yields Reader.advance fun _ => True := by
  intro input read next spelled given
  obtain ⟨token, tokens, fault, depth⟩ := input
  refine ⟨?_, trivial⟩
  cases tokens with
  | nil =>
      cases fault <;> cases given
      exact spelled
  | cons second others =>
      cases fault <;> cases given <;>
        exact fun other mem => spelled other (List.mem_cons_of_mem _ mem)

/-- Looking at the mark in front leaves tokens that spell names. -/
theorem peek (mark : Mark) : Yields (Reader.peek mark) fun _ => True :=
  current.map fun _ _ => trivial

/-- So does insisting on a mark. -/
theorem expect (mark : Mark) : Yields (Reader.expect mark) fun _ => True :=
  current.bind fun _ _ => ite (fun _ => advance) fun _ => failAt _ _

/-- So does taking a mark where there is one. -/
theorem accept (mark : Mark) : Yields (Reader.accept mark) fun _ => True :=
  (peek mark).bind fun _ _ =>
    ite (fun _ => advance.bind fun _ _ => pure trivial) fun _ => pure trivial

/-- So does insisting on a keyword. -/
theorem expectKeyword (word : Text) : Yields (Reader.expectKeyword word) fun _ => True :=
  current.bind fun _ _ => ite (fun _ => advance) fun _ => failAt _ _

/-- So does taking a keyword where there is one. -/
theorem acceptKeyword (word : Text) : Yields (Reader.acceptKeyword word) fun _ => True :=
  current.bind fun _ _ =>
    ite (fun _ => advance.bind fun _ _ => pure trivial) fun _ => pure trivial

/-- A reader of names yields names. -/
theorem name : Yields Reader.name IsName :=
  current.bind fun token isSpelled => by
    cases isKind : token.kind with
    | name content =>
        rw [isKind] at isSpelled
        exact advance.bind fun _ _ => pure isSpelled
    | _ => exact failAt _ _

/-- A reader one level deeper yields the same. -/
theorem nested (yields : Yields reader property) : Yields (Reader.nested reader) property := by
  intro input read next spelled given
  rw [Reads.run_nested] at given
  split at given
  · cases given
  · obtain ⟨⟨inner, after⟩, givenInner, isResult⟩ := map_eq_ok_iff.mp given
    cases isResult
    exact yields { input with depth := input.depth + 1 } inner after spelled givenInner

/-- Everything in a list has the property. -/
abbrev Each (property : α → Prop) (read : List α) : Prop :=
  ∀ item ∈ read, property item

/-- Up to a closing mark a reader of things yields things each of which it may yield, behind known
ones. -/
theorem upTo (yields : Yields reader property) (closing : Mark) (fuel : Nat) {known : List α}
    (before : Each property known) :
    Yields (Reader.upTo fuel reader closing known) (Each property) := by
  induction fuel generalizing known with
  | zero => exact unexpected
  | succ fuel inductionHypothesis =>
      refine (accept closing).bind fun taken _ => ite (fun _ => pure ?_) fun _ => ?_
      · exact fun item mem => before item (List.mem_reverse.mp mem)
      · exact yields.bind fun next holds =>
          inductionHypothesis (List.forall_mem_cons.mpr ⟨holds, before⟩)

/-- Between two marks it yields any number of them. -/
theorem any (yields : Yields reader property) (opening closing : Mark) :
    Yields (Reader.any opening reader closing) (Each property) :=
  (expect opening).bind fun _ _ => bound.bind fun fuel _ => yields.upTo closing fuel nofun

/-- Between two marks it yields at least one of them. -/
theorem many (yields : Yields reader property) (opening closing : Mark) :
    Yields (Reader.many opening reader closing) (Each property) :=
  (expect opening).bind fun _ _ => yields.bind fun _ holds => bound.bind fun fuel _ =>
    yields.upTo closing fuel (List.forall_mem_singleton.mpr holds)

/-- It yields none at all where the marks are left out. -/
theorem optionalMany (yields : Yields reader property) (opening closing : Mark) :
    Yields (Reader.optionalMany opening reader closing) (Each property) :=
  (peek opening).bind fun _ _ => ite (fun _ => yields.many opening closing) fun _ => pure nofun

/-- Things with a mark between neighbours are yielded one by one, behind known ones. -/
theorem separatedFrom (yields : Yields reader property) (separator : Mark) (fuel : Nat)
    {known : List α} (before : Each property known) :
    Yields (Reader.separatedFrom fuel separator reader known) (Each property) := by
  induction fuel generalizing known with
  | zero => exact unexpected
  | succ fuel inductionHypothesis =>
      refine yields.bind fun next holds => (accept separator).bind fun taken _ => ?_
      have all : Each property (next :: known) := List.forall_mem_cons.mpr ⟨holds, before⟩
      refine ite (fun _ => inductionHypothesis all) fun _ => pure ?_
      exact fun item mem => all item (List.mem_reverse.mp mem)

/-- The mark may also stand in front of the first thing. -/
theorem separated (yields : Yields reader property) (separator : Mark) :
    Yields (Reader.separated separator reader) (Each property) :=
  (accept separator).bind fun _ _ => bound.bind fun fuel _ =>
    yields.separatedFrom separator fuel nofun

/-- Things are yielded one by one as long as there is a mark in front of them. -/
theorem whilePeek (yields : Yields reader property) (mark : Mark) (fuel : Nat) {known : List α}
    (before : Each property known) :
    Yields (Reader.whilePeek fuel mark reader known) (Each property) := by
  induction fuel generalizing known with
  | zero => exact unexpected
  | succ fuel inductionHypothesis =>
      refine (peek mark).bind fun here _ => ite (fun _ => ?_) fun _ => pure ?_
      · exact yields.bind fun next holds =>
          inductionHypothesis (List.forall_mem_cons.mpr ⟨holds, before⟩)
      · exact fun item mem => before item (List.mem_reverse.mp mem)

end Yields

/-- What a reader gives of a text has what the reader yields. -/
theorem Yields.of_readWith {α : Type} {reader : Reader α} {property : α → Prop}
    (yields : Yields reader property) {source : Text} {read : α}
    (given : readWith reader source = .ok read) : property read := by
  have spelled : ∀ token ∈ (TokenStream.ofText source).tokens, token.kind.IsSpelled :=
    isSpelled_of_readTokens (source.length + 1) (Cursor.start source) nofun
  unfold readWith at given
  generalize TokenStream.ofText source = stream at spelled given
  obtain ⟨tokens, fault⟩ := stream
  have input : ∀ fault, Input.IsSpelled
      ⟨tokens.headD ⟨.endOfDocument, source.length⟩, tokens.drop 1, fault, 0⟩ := by
    cases tokens with
    | nil => exact fun fault => List.forall_mem_singleton.mpr trivial
    | cons first following => exact fun fault => spelled
  dsimp only at given
  split at given
  · cases given
  · obtain ⟨⟨result, next⟩, isRead, rfl⟩ := map_eq_ok_iff.mp given
    exact (yields _ result next (input _) isRead).2

end SchemaOrder.Document
