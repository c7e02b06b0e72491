import Mathlib.Data.List.Forall2
import SchemaOrder.Proofs.Document.BlockQuotation
import SchemaOrder.Proofs.Document.Numbers
import SchemaOrder.Proofs.Document.Quotation

/-!
# Pieces of documents

A document is written piece by piece. A piece is cut into the same tokens wherever it stands, as
long as what stands behind it is apart from it; a closed piece is so whatever stands behind. Pieces
are put together in a row and with separators between them.
-/

namespace SchemaOrder.Document

open CodePoint (ofChar)

/-- A text that is cut into tokens of the given kinds wherever something apart stands behind it. It
holds no carriage return, so that its line ends are those that files have. -/
structure Piece (text : Text) (kinds : List TokenKind) : Prop where
  cuts : ∀ rest, Apart rest → Cuts text rest kinds
  noReturn : ofChar '\r' ∉ text

/-- A text that is cut into tokens of the given kinds whatever stands behind it. -/
structure ClosedPiece (text : Text) (kinds : List TokenKind) : Prop where
  cuts : ∀ rest, Cuts text rest kinds
  noReturn : ofChar '\r' ∉ text

/-- What is in neither of two texts is not in both together. -/
theorem noReturn_append {first second : Text} (notFirst : ofChar '\r' ∉ first)
    (notSecond : ofChar '\r' ∉ second) : ofChar '\r' ∉ first ++ second :=
  fun mem => (List.mem_append.mp mem).elim notFirst notSecond

namespace ClosedPiece

variable {text first second : Text} {kinds firstKinds secondKinds : List TokenKind}

/-- What is cut in front of anything is cut in front of what stands apart. -/
theorem piece (closed : ClosedPiece text kinds) : Piece text kinds :=
  ⟨fun rest _ => closed.cuts rest, closed.noReturn⟩

/-- The empty text is cut into no tokens. -/
theorem nil : ClosedPiece [] [] :=
  ⟨Cuts.nil, List.not_mem_nil⟩

/-- So is a text of which all is ignored. -/
theorem ignored
    (allIgnored : ∀ codePoint ∈ text, isIgnored codePoint = true ∧ codePoint ≠ ofChar '\r') :
    ClosedPiece text [] :=
  ⟨Cuts.ignored fun codePoint mem => (allIgnored codePoint mem).1,
    fun mem => (allIgnored _ mem).2 rfl⟩

/-- A mark is one token. -/
theorem mark (sign : Mark) : ClosedPiece sign.text [.mark sign] :=
  ⟨Cuts.mark sign, by cases sign <;> decide⟩

/-- One closed piece behind another one is a closed piece. -/
theorem append (closedFirst : ClosedPiece first firstKinds)
    (closedSecond : ClosedPiece second secondKinds) :
    ClosedPiece (first ++ second) (firstKinds ++ secondKinds) :=
  ⟨fun rest => (closedFirst.cuts _).append (closedSecond.cuts rest),
    noReturn_append closedFirst.noReturn closedSecond.noReturn⟩

/-- A piece that stands behind a closed one. -/
theorem before (closed : ClosedPiece first firstKinds) (piece : Piece second secondKinds) :
    Piece (first ++ second) (firstKinds ++ secondKinds) :=
  ⟨fun rest apart => (closed.cuts _).append (piece.cuts rest apart),
    noReturn_append closed.noReturn piece.noReturn⟩

end ClosedPiece

namespace Piece

variable {text first second : Text} {kinds firstKinds secondKinds : List TokenKind}

/-- A name is one token, in front of what stands apart. -/
theorem name (isName : IsName text) : Piece text [.name text] :=
  ⟨fun _ apart => Cuts.name isName apart, isName.noReturn⟩

/-- So is a number. -/
theorem number (isNumber : IsNumber text) : Piece text [numberKind text] :=
  ⟨fun _ apart => Cuts.number isNumber apart, isNumber.noReturn⟩

/-- So is a text in quotation marks. -/
theorem quoted (content : Text) : Piece (writeText content) [.text content] :=
  ⟨fun _ apart => Cuts.text content apart, noReturn_writeText content⟩

/-- A piece with another one behind it that is apart. -/
theorem append (pieceFirst : Piece first firstKinds) (apartSecond : Apart second)
    (pieceSecond : Piece second secondKinds) :
    Piece (first ++ second) (firstKinds ++ secondKinds) :=
  ⟨fun rest apart => (pieceFirst.cuts _ (apartSecond.append apart)).append
      (pieceSecond.cuts rest apart),
    noReturn_append pieceFirst.noReturn pieceSecond.noReturn⟩

/-- A piece is closed by something closed that ends tokens. -/
theorem closed (piece : Piece first firstKinds) (closedSecond : ClosedPiece second secondKinds)
    (ends : endsToken second = true) :
    ClosedPiece (first ++ second) (firstKinds ++ secondKinds) := by
  refine ⟨fun rest => (piece.cuts _ ?_).append (closedSecond.cuts rest),
    noReturn_append piece.noReturn closedSecond.noReturn⟩
  cases second with
  | nil => cases ends
  | cons head tail => exact Apart.of_endsToken ends

/-- Pieces with a separator between neighbours. -/
theorem join {ι : Type} {separator : Text} {separatorKinds : List TokenKind}
    (closedSeparator : ClosedPiece separator separatorKinds) (ends : endsToken separator = true)
    {items : List ι} {texts : List Text} {kinds : ι → List TokenKind}
    (pieces : List.Forall₂ (fun item text => Piece text (kinds item)) items texts) :
    Piece (Text.join separator texts) ((items.map kinds).intersperse separatorKinds).flatten := by
  induction pieces with
  | nil => exact ClosedPiece.nil.piece
  | @cons item text items texts first others inductionHypothesis =>
      cases others with
      | nil =>
          change Piece text [kinds item].flatten
          rwa [List.flatten_singleton]
      | @cons second secondText items texts =>
          change Piece (text ++ separator ++ Text.join separator (secondText :: texts))
            (kinds item ++ (separatorKinds ++
              (((second :: items).map kinds).intersperse separatorKinds).flatten))
          rw [← List.append_assoc (kinds item)]
          exact (first.closed closedSeparator ends).before inductionHypothesis

/-- What is between neighbours makes no tokens. -/
theorem flatten_intersperse_nil (lists : List (List TokenKind)) :
    (lists.intersperse []).flatten = lists.flatten := by
  induction lists with
  | nil => rfl
  | cons first others inductionHypothesis =>
      cases others with
      | nil => rfl
      | cons second others =>
          change first ++ ([] ++ ((second :: others).intersperse []).flatten) = _
          rw [inductionHypothesis]
          rfl

/-- Pieces with blanks between neighbours. -/
theorem joinBlank {ι : Type} {separator : Text} (ends : endsToken separator = true)
    (allIgnored : ∀ codePoint ∈ separator, isIgnored codePoint = true ∧ codePoint ≠ ofChar '\r')
    {items : List ι} {texts : List Text} {kinds : ι → List TokenKind}
    (pieces : List.Forall₂ (fun item text => Piece text (kinds item)) items texts) :
    Piece (Text.join separator texts) (items.flatMap kinds) := by
  have joined := join (ClosedPiece.ignored allIgnored) ends pieces
  rwa [flatten_intersperse_nil, ← List.flatMap_def] at joined

/-- Pieces with commas between neighbours, which are blanks. -/
theorem joinComma {ι : Type} {items : List ι} {texts : List Text} {kinds : ι → List TokenKind}
    (pieces : List.Forall₂ (fun item text => Piece text (kinds item)) items texts) :
    Piece (Text.join ", " texts) (items.flatMap kinds) :=
  joinBlank rfl (by decide) pieces

/-- Pieces on lines of their own. -/
theorem joinLines {ι : Type} {items : List ι} {texts : List Text} {kinds : ι → List TokenKind}
    (pieces : List.Forall₂ (fun item text => Piece text (kinds item)) items texts) :
    Piece (Text.join "\n" texts) (items.flatMap kinds) :=
  joinBlank rfl (by decide) pieces

/-- Pieces that a function writes. -/
theorem forall₂_map {ι : Type} {items : List ι} {write : ι → Text} {kinds : ι → List TokenKind}
    (pieces : ∀ item ∈ items, Piece (write item) (kinds item)) :
    List.Forall₂ (fun item text => Piece text (kinds item)) items (items.map write) :=
  List.forall₂_map_right_iff.mpr (List.forall₂_same.mpr pieces)

end Piece

end SchemaOrder.Document
