import SchemaOrder.Text.Basic

/-!
# Places in a text

This module holds the place that a reader of a text has reached: how much it has read
and what is left.
-/

namespace SchemaOrder

/-- A place in a text: how many code points were read, and the others. -/
structure Cursor where
  position : Nat
  rest : Text

namespace Cursor

/-- The beginning of a text. -/
def start (text : Text) : Cursor :=
  ⟨0, text⟩

/-- The place a number of code points further on. -/
def advance (cursor : Cursor) (count : Nat) : Cursor :=
  ⟨cursor.position + count, cursor.rest.drop count⟩

/-- The place behind the code points that a class admits. -/
def skip (cursor : Cursor) (admits : CodePoint → Bool) : Cursor :=
  cursor.advance (cursor.rest.takeWhile admits).length

/-- Whether the next code point is the given character. -/
def startsWith (cursor : Cursor) (character : Char) : Bool :=
  match cursor.rest with
  | codePoint :: _ => codePoint = CodePoint.ofChar character
  | [] => false

/-- Whether the next code points are those of the given text. -/
def startsWithText (cursor : Cursor) (text : Text) : Bool :=
  text.isPrefixOf cursor.rest

end Cursor

end SchemaOrder
