import SchemaOrder.Document.Printer
import SchemaOrder.Proofs.Document.Pieces
import SchemaOrder.Proofs.Document.Reading

/-!
# Literals that are read again

A literal that is written stands for tokens, and these are read as a literal again. That is the
same one, save that a number without a fraction and without an exponent is an integer then, and
that the line feed behind the digits of an identifier is lost.
-/

namespace SchemaOrder.Document

open CodePoint (ofChar)

/-- Digits without the line feed that may stand behind them. -/
def withoutFeed (digits : Text) : Text :=
  if digits.endsWith "\n" then digits.dropLast else digits

/-- Digits with a sign before them, if anything. -/
def IsInteger (digits : Text) : Prop :=
  ∃ sign whole, digits = sign ++ whole ∧ IsSign sign ∧ IsDigits whole

/-- Digits are a number. -/
theorem IsInteger.isNumber {digits : Text} (isInteger : IsInteger digits) :
    IsNumber digits ∧ numberKind digits = .integer digits := by
  obtain ⟨sign, whole, rfl, isSign, isDigits⟩ := isInteger
  refine ⟨⟨sign, whole, [], [], by simp, isSign, isDigits, .inl rfl, .inl rfl⟩, ?_⟩
  have kind := numberKind_eq isSign isDigits (.inl rfl) (.inl rfl)
  simpa using kind

/-- A line feed behind digits is all that is lost of them. -/
theorem withoutFeed_append (digits : Text) :
    ∃ feed, withoutFeed digits ++ feed = digits ∧ (feed = [] ∨ feed = [ofChar '\n']) := by
  unfold withoutFeed
  split
  · rename_i ends
    obtain ⟨front, rfl⟩ := List.isSuffixOf_iff_suffix.mp ends
    exact ⟨[ofChar '\n'], by simp [Text.ofString], .inr rfl⟩
  · exact ⟨[], by simp, .inl rfl⟩

/-- The names that are no values of an enum. -/
def reservedNames : List Text :=
  ["true", "false", "null"]

namespace Literal

/-- A literal that is read again where it is written. -/
inductive IsReadable : Literal → Prop where
  | integer {digits : Text} (isInteger : IsInteger (withoutFeed digits)) :
      IsReadable (.integer digits)
  | float {digits : Text} (isNumber : IsNumber digits) : IsReadable (.float digits)
  | text (content : Text) : IsReadable (.text content false)
  | boolean (value : Bool) : IsReadable (.boolean value)
  | null : IsReadable .null
  | enumValue {name : Text} (isName : IsName name) (notReserved : name ∉ reservedNames) :
      IsReadable (.enumValue name)
  | list {items : List Literal} (readable : ∀ item ∈ items, IsReadable item) :
      IsReadable (.list items)
  | object {fields : List (Text × Literal)} (areNames : ∀ field ∈ fields, IsName field.1)
      (readable : ∀ field ∈ fields, IsReadable field.2) : IsReadable (.object fields)

mutual

/-- What a literal is read as where it is written. -/
def reread : Literal → Literal
  | .integer digits => .integer (withoutFeed digits)
  | .float digits =>
    match numberKind digits with
    | .integer digits => .integer digits
    | _ => .float digits
  | .list items => .list (rereadItems items)
  | .object fields => .object (rereadFields fields)
  | other => other

/-- What the items of a list are read as. -/
def rereadItems : List Literal → List Literal
  | [] => []
  | item :: rest => reread item :: rereadItems rest

/-- What the fields of an object are read as. -/
def rereadFields : List (Text × Literal) → List (Text × Literal)
  | [] => []
  | (name, value) :: rest => (name, reread value) :: rereadFields rest

end

mutual

/-- The tokens that a literal is cut into where it is written. -/
def kinds : Literal → List TokenKind
  | .variable name => [.mark .dollar, .name name]
  | .integer digits => [.integer (withoutFeed digits)]
  | .float digits => [numberKind digits]
  | .text content isBlock => [if isBlock then .block content else .text content]
  | .boolean value => [.name (if value then "true" else "false")]
  | .null => [.name "null"]
  | .enumValue name => [.name name]
  | .list items => .mark .openBracket :: (itemKinds items ++ [.mark .closeBracket])
  | .object fields => .mark .openBrace :: (fieldKinds fields ++ [.mark .closeBrace])

/-- The tokens of the items of a list. -/
def itemKinds : List Literal → List TokenKind
  | [] => []
  | item :: rest => kinds item ++ itemKinds rest

/-- The tokens of the fields of an object. -/
def fieldKinds : List (Text × Literal) → List TokenKind
  | [] => []
  | (name, value) :: rest => .name name :: .mark .colon :: kinds value ++ fieldKinds rest

end

/-- The tokens of a field of an object. -/
def kindsOfField (field : Text × Literal) : List TokenKind :=
  .name field.1 :: .mark .colon :: field.2.kinds

/-- A field of an object as it is written. -/
def writeField (field : Text × Literal) : Text :=
  field.1 ++ ": " ++ field.2.write

/-- The tokens of items are those of each of them, one after the other. -/
theorem itemKinds_eq (items : List Literal) : itemKinds items = items.flatMap kinds := by
  induction items with
  | nil => rfl
  | cons item items inductionHypothesis =>
      rw [itemKinds, inductionHypothesis, List.flatMap_cons]

/-- So are the tokens of fields. -/
theorem fieldKinds_eq (fields : List (Text × Literal)) :
    fieldKinds fields = fields.flatMap kindsOfField := by
  induction fields with
  | nil => rfl
  | cons field fields inductionHypothesis =>
      rw [fieldKinds, inductionHypothesis, List.flatMap_cons]
      rfl

/-- Items are written one by one. -/
theorem writeItems_eq (items : List Literal) : writeItems items = items.map write := by
  induction items with
  | nil => rfl
  | cons item items inductionHypothesis => rw [writeItems, inductionHypothesis, List.map_cons]

/-- So are fields. -/
theorem writeFields_eq (fields : List (Text × Literal)) :
    writeFields fields = fields.map writeField := by
  induction fields with
  | nil => rfl
  | cons field fields inductionHypothesis =>
      rw [writeFields, inductionHypothesis, List.map_cons]
      rfl

/-- Items are read back one by one. -/
theorem rereadItems_eq (items : List Literal) : rereadItems items = items.map reread := by
  induction items with
  | nil => rfl
  | cons item items inductionHypothesis => rw [rereadItems, inductionHypothesis, List.map_cons]

/-- So are fields, under the names that they have. -/
theorem rereadFields_eq (fields : List (Text × Literal)) :
    rereadFields fields = fields.map fun field => (field.1, field.2.reread) := by
  induction fields with
  | nil => rfl
  | cons field fields inductionHypothesis =>
      rw [rereadFields, inductionHypothesis, List.map_cons]

end Literal

/-- A name and the colon and the blank behind it. -/
theorem ClosedPiece.label {name : Text} (isName : IsName name) :
    ClosedPiece (name ++ ": ") [.name name, .mark .colon] := by
  have blank : ClosedPiece [ofChar ' '] [] := ClosedPiece.ignored (by decide)
  have colon : ClosedPiece ": " [.mark .colon] := (ClosedPiece.mark .colon).append blank
  exact (Piece.name isName).closed colon rfl

namespace Literal

/-- A literal that is readable is cut into its tokens. -/
theorem IsReadable.piece {literal : Literal} (readable : literal.IsReadable) :
    Piece literal.write literal.kinds := by
  induction readable with
  | @integer digits isInteger =>
      obtain ⟨feed, isDigits, isFeed⟩ := withoutFeed_append digits
      obtain ⟨isNumber, kind⟩ := isInteger.isNumber
      have number := Piece.number isNumber
      rw [kind] at number
      suffices whole : Piece (withoutFeed digits ++ feed) [.integer (withoutFeed digits)] by
        rwa [isDigits] at whole
      rcases isFeed with rfl | rfl
      · rwa [List.append_nil]
      · have feed : ClosedPiece [ofChar '\n'] [] := ClosedPiece.ignored (by decide)
        exact number.append (.of_endsToken rfl) feed.piece
  | float isNumber => exact Piece.number isNumber
  | text content => exact Piece.quoted content
  | boolean value =>
      cases value <;> exact Piece.name (by decide)
  | null => exact Piece.name (by decide)
  | enumValue isName notReserved => exact Piece.name isName
  | list readable inductionHypothesis =>
      have closing : ClosedPiece "]" [.mark .closeBracket] := ClosedPiece.mark .closeBracket
      rw [write, kinds, writeItems_eq, itemKinds_eq]
      have inside := Piece.joinComma (Piece.forall₂_map inductionHypothesis)
      exact (ClosedPiece.mark .openBracket).before (inside.closed closing rfl).piece
  | @object fields areNames readable inductionHypothesis =>
      have closing : ClosedPiece "\x7d" [.mark .closeBrace] := ClosedPiece.mark .closeBrace
      have pieces : ∀ field ∈ fields, Piece (writeField field) (kindsOfField field) :=
        fun field mem => (ClosedPiece.label (areNames field mem)).before
          (inductionHypothesis field mem)
      rw [write, kinds, writeFields_eq, fieldKinds_eq]
      have inside := Piece.joinComma (Piece.forall₂_map pieces)
      exact (ClosedPiece.mark .openBrace).before (inside.closed closing rfl).piece

/-- A literal begins with something that ends nothing. -/
theorem kinds_begin (literal : Literal) : ∃ first others, literal.kinds = first :: others ∧
    first ≠ .mark .closeBracket ∧ first ≠ .mark .closeBrace := by
  cases literal with
  | float digits =>
      refine ⟨_, _, rfl, ?_⟩
      unfold numberKind
      split <;> exact ⟨nofun, nofun⟩
  | text content isBlock => cases isBlock <;> exact ⟨_, _, rfl, nofun, nofun⟩
  | _ => exact ⟨_, _, rfl, nofun, nofun⟩

variable {isConstant : Bool}

/-- A number is read as the literal that its token says. -/
theorem reads_number (digits : Text) (fuel : Nat) (behind : List TokenKind) :
    Reads (Reader.literalWith (fuel + 1) isConstant) [numberKind digits] behind
      fun read => read = (Literal.float digits).reread := by
  refine Reads.bindNone Reads.current fun token isKind => ?_
  rw [reread]
  by_cases isFloat : (digits.any fun codePoint =>
      codePoint = ofChar '.' || codePoint = ofChar 'e') = true
  · simp only [isKind, numberKind, isFloat, if_true]
    exact Reads.advance.bindLast fun _ _ => Reads.pure rfl
  · simp only [isKind, numberKind, isFloat, Bool.false_eq_true, if_false]
    exact Reads.advance.bindLast fun _ _ => Reads.pure rfl

/-- A name is read as the literal that it is. -/
theorem reads_word (word : Text) (fuel : Nat) (behind : List TokenKind) :
    Reads (Reader.literalWith (fuel + 1) isConstant) [.name word] behind
      fun read => read = Reader.wordLiteral word := by
  refine Reads.bindNone Reads.current fun token isKind => ?_
  simp only [isKind]
  exact Reads.advance.bindLast fun _ _ => Reads.pure rfl

/-- Things that are each the value of a function are its values along the list. -/
theorem eq_map_of_forall₂ {α β : Type} {change : α → β} {things : List α} {results : List β}
    (all : List.Forall₂ (fun thing result => result = change thing) things results) :
    results = things.map change := by
  induction all with
  | nil => rfl
  | cons same _ inductionHypothesis => rw [same, inductionHypothesis, List.map_cons]

/-- Without fuel nothing is read. -/
theorem reads_of_succ {kinds behind : List TokenKind}
    {property : Literal → Prop}
    (reads : ∀ fuel, Reads (Reader.literalWith (fuel + 1) isConstant) kinds behind property)
    (fuel : Nat) : Reads (Reader.literalWith fuel isConstant) kinds behind property := by
  cases fuel with
  | zero => exact Reads.unexpected
  | succ fuel => exact reads fuel

/-- A literal that is readable is read as it says. The fuel is what is left behind the first
step. -/
theorem IsReadable.reads_succ {literal : Literal} (readable : literal.IsReadable) (fuel : Nat)
    (behind : List TokenKind) :
    Reads (Reader.literalWith (fuel + 1) isConstant) literal.kinds behind
      fun read => read = literal.reread := by
  induction readable generalizing fuel behind with
  | integer isInteger =>
      refine Reads.bindNone Reads.current fun token isKind => ?_
      simp only [isKind]
      exact Reads.advance.bindLast fun _ _ => Reads.pure rfl
  | @float digits isNumber => exact reads_number digits fuel behind
  | text content =>
      refine Reads.bindNone Reads.current fun token isKind => ?_
      simp only [isKind]
      exact Reads.advance.bindLast fun _ _ => Reads.pure rfl
  | boolean value =>
      cases value
      · exact reads_word "false" fuel behind
      · exact reads_word "true" fuel behind
  | null => exact reads_word "null" fuel behind
  | @enumValue name isName notReserved =>
      simp only [reservedNames, List.mem_cons, List.not_mem_nil, not_or] at notReserved
      refine (reads_word name fuel behind).weaken ?_
      rintro read rfl
      simp [Reader.wordLiteral, reread, notReserved]
  | @list items readable inductionHypothesis =>
      have areParts : ∀ item ∈ items, IsPart (Reader.literalWith fuel isConstant) (fun _ => True)
          .closeBracket item.kinds (fun read => read = item.reread) := by
        intro item mem
        obtain ⟨first, others, isCons, notClosing, -⟩ := item.kinds_begin
        exact ⟨fun behind _ => reads_of_succ (inductionHypothesis item mem · behind) fuel, first,
          others, isCons, trivial, notClosing⟩
      rw [kinds, itemKinds_eq, reread, rereadItems_eq]
      refine Reads.bindNone Reads.current fun token isKind => ?_
      simp only [isKind]
      refine (Reads.any areParts trivial .openBracket).nested.map ?_
      exact fun values all => congrArg Literal.list (eq_map_of_forall₂ all)
  | @object fields areNames readable inductionHypothesis =>
      have areParts : ∀ field ∈ fields, IsPart
          (do
            let fieldName ← Reader.name
            Reader.expect .colon
            return (fieldName, ← Reader.literalWith fuel isConstant))
          (fun _ => True) .closeBrace (kindsOfField field)
          (fun read => read = (field.1, field.2.reread)) := by
        intro field mem
        refine ⟨fun behind _ => ?_, _, _, rfl, trivial, nofun⟩
        refine Reads.bindCons (Reads.name field.1) fun fieldName isName => ?_
        refine Reads.bindCons (Reads.expect .colon) fun _ _ => ?_
        refine (reads_of_succ (inductionHypothesis field mem · behind) fuel).map ?_
        rintro read rfl
        rw [isName]
      rw [kinds, fieldKinds_eq, reread, rereadFields_eq]
      refine Reads.bindNone Reads.current fun token isKind => ?_
      simp only [isKind]
      refine (Reads.any areParts trivial .openBrace).nested.map ?_
      exact fun values all => congrArg Literal.object (eq_map_of_forall₂ all)

/-- A literal that is readable is read as it says. -/
theorem IsReadable.reads {literal : Literal} (readable : literal.IsReadable)
    (behind : List TokenKind) :
    Reads (Reader.literal isConstant) literal.kinds behind fun read => read = literal.reread :=
  Reads.bindNone Reads.bound fun fuel _ => reads_of_succ (readable.reads_succ · behind) fuel

end Literal

end SchemaOrder.Document
