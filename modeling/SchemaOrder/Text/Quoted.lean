import SchemaOrder.Text.Basic
import SchemaOrder.Text.Printable

/-!
# Quoted texts

This module holds how a message shows a text that it cannot trust: between
quotation marks, with everything that is not printable escaped.
-/

namespace SchemaOrder.Text

/-- An escape: a backslash, a letter, and the code point in small hexadecimal digits. -/
def hexEscape (letter : Char) (width : Nat) (codePoint : CodePoint) : Text :=
  [CodePoint.ofChar '\\', CodePoint.ofChar letter] ++
    padLeft width (lower (digitsIn 16 codePoint.value)) '0'

/-- How a code point is written between quotation marks of the given kind. -/
def quotedCodePoint (mark : CodePoint) (codePoint : CodePoint) : Text :=
  if codePoint = mark || codePoint = CodePoint.ofChar '\\' then
    [CodePoint.ofChar '\\', codePoint]
  else if codePoint = CodePoint.ofChar '\n' then "\\n"
  else if codePoint = CodePoint.ofChar '\r' then "\\r"
  else if codePoint = CodePoint.ofChar '\t' then "\\t"
  else if 0x20 ≤ codePoint.value && codePoint.value < 0x7F then [codePoint]
  else if codePoint.isPrintable then [codePoint]
  else if codePoint.value < 0x100 then hexEscape 'x' 2 codePoint
  else if codePoint.value < 0x10000 then hexEscape 'u' 4 codePoint
  else hexEscape 'U' 8 codePoint

/-- The mark a text is quoted with: the apostrophe, unless the text holds one and
holds no double quotation mark. -/
def quotationMark (text : Text) : CodePoint :=
  if text.contains (CodePoint.ofChar '\x27') && !text.contains (CodePoint.ofChar '"') then
    CodePoint.ofChar '"'
  else CodePoint.ofChar '\x27'

/-- The text as a message shows it. -/
def quoted (text : Text) : Text :=
  let mark := quotationMark text
  mark :: text.flatMap (quotedCodePoint mark) ++ [mark]

end SchemaOrder.Text
