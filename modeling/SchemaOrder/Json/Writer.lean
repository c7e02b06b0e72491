import SchemaOrder.Json.Value
import SchemaOrder.Number.Shortest

/-!
# Writing JSON

This module holds the two ways a JSON value is written: over many lines with two
blanks for each level, as documents are stored, and on one line in ASCII, as
messages between programs are.
-/

namespace SchemaOrder.Json

/-- What the writers disagree on. -/
structure Layout where
  /-- Whether members and items have lines of their own. -/
  indented : Bool
  /-- Whether everything beyond ASCII is escaped. -/
  ascii : Bool

/-- An escape of four hexadecimal digits. -/
def unicodeEscape (unit : Nat) : Text :=
  "\\u" ++ Text.padLeft 4 (Text.lower (Text.digitsIn 16 unit)) '0'

/-- How a code point is written inside a text. -/
def writeCodePoint (layout : Layout) (codePoint : CodePoint) : Text :=
  let value := codePoint.value
  if value = '"'.toNat then "\\\""
  else if value = '\\'.toNat then "\\\\"
  else if value = '\n'.toNat then "\\n"
  else if value = '\r'.toNat then "\\r"
  else if value = '\t'.toNat then "\\t"
  else if value = 12 then "\\f"
  else if value = 8 then "\\b"
  else if value < 0x20 then unicodeEscape value
  else if layout.ascii && 0x7E < value then
    if value < 0x10000 then unicodeEscape value
    else
      let offset := value - 0x10000
      unicodeEscape (0xD800 + offset / 0x400) ++ unicodeEscape (0xDC00 + offset % 0x400)
  else [codePoint]

/-- A text between its marks. -/
def writeText (layout : Layout) (text : Text) : Text :=
  CodePoint.ofChar '"' :: text.flatMap (writeCodePoint layout) ++ [CodePoint.ofChar '"']

/-- A floating-point number. -/
def writeFloat : Binary64 → Text
  | .nan => "NaN"
  | .infinite negative => Binary64.signed negative "Infinity"
  | number => number.shortestText

/-- The end of a line and the blanks of the next one. -/
def newLine (level : Nat) : Text :=
  CodePoint.ofChar '\n' :: Text.repeated (2 * level) ' '

/-- Parts between brackets, with commas between them. -/
def writeParts (layout : Layout) (level : Nat) (opening closing : Text) (parts : List Text) :
    Text :=
  if parts.isEmpty then opening ++ closing
  else if layout.indented then
    opening ++ newLine (level + 1) ++ Text.join ("," ++ newLine (level + 1)) parts ++
      newLine level ++ closing
  else opening ++ Text.join ", " parts ++ closing

mutual

/-- A value on the given level of indentation. -/
def write (layout : Layout) (level : Nat) : Json → Text
  | .null => "null"
  | .boolean true => "true"
  | .boolean false => "false"
  | .integer value => Text.ofInt value
  | .float value => writeFloat value
  | .text value => writeText layout value
  | .array items => writeParts layout level "[" "]" (writeItems layout (level + 1) items)
  | .object members =>
    writeParts layout level "\x7b" "\x7d" (writeMembers layout (level + 1) members)

/-- The items of an array. -/
def writeItems (layout : Layout) (level : Nat) : List Json → List Text
  | [] => []
  | item :: rest => write layout level item :: writeItems layout level rest

/-- The members of an object. -/
def writeMembers (layout : Layout) (level : Nat) : List (Text × Json) → List Text
  | [] => []
  | (name, value) :: rest =>
    (writeText layout name ++ ": " ++ write layout level value) ::
      writeMembers layout level rest

end

/-- The text of a document: indented, with everything but controls written as it is. -/
def document (value : Json) : Text :=
  write ⟨true, false⟩ 0 value

/-- The text of a message: one line of ASCII. -/
def line (value : Json) : Text :=
  write ⟨false, true⟩ 0 value

end SchemaOrder.Json
