import SchemaOrder.Document.Basic
import SchemaOrder.Document.Block

/-!
# Writing values

This module holds how values are written in the schema language.
-/

namespace SchemaOrder.Document

/-- How a code point is written inside a text. -/
def writeCodePoint (codePoint : CodePoint) : Text :=
  let value := codePoint.value
  if value = '"'.toNat then "\\\""
  else if value = '\\'.toNat then "\\\\"
  else if value = 8 then "\\b"
  else if value = 9 then "\\t"
  else if value = 10 then "\\n"
  else if value = 12 then "\\f"
  else if value = 13 then "\\r"
  else if value < 0x20 || (0x7F ≤ value && value ≤ 0x9F) then
    "\\u" ++ Text.padLeft 4 (Text.digitsIn 16 value) '0'
  else [codePoint]

/-- A text between its marks. -/
def writeText (text : Text) : Text :=
  CodePoint.ofChar '"' :: text.flatMap writeCodePoint ++ [CodePoint.ofChar '"']

namespace Literal

mutual

/-- A value as it is written. -/
def write : Literal → Text
  | .variable name => "$" ++ name
  | .integer digits => digits
  | .float digits => digits
  | .text content true => blockText content
  | .text content false => writeText content
  | .boolean true => "true"
  | .boolean false => "false"
  | .null => "null"
  | .enumValue name => name
  | .list items => "[" ++ Text.join ", " (writeItems items) ++ "]"
  | .object fields => "\x7b" ++ Text.join ", " (writeFields fields) ++ "\x7d"

/-- The items of a list as they are written. -/
def writeItems : List Literal → List Text
  | [] => []
  | item :: rest => write item :: writeItems rest

/-- The fields of an object as they are written. -/
def writeFields : List (Text × Literal) → List Text
  | [] => []
  | (name, value) :: rest => (name ++ ": " ++ write value) :: writeFields rest

end

/-- Whether a value is a variable. -/
def isVariable : Literal → Bool
  | .variable _ => true
  | _ => false

end Literal

end SchemaOrder.Document
