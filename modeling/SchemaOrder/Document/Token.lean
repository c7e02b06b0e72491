import SchemaOrder.Text.Basic

/-!
# Tokens

This module holds the tokens that a document of the schema language is made of, what
they are called in messages, and the faults that can be found in a document while it is
cut into tokens and while the tokens are read.
-/

namespace SchemaOrder.Document

/-- The marks that are tokens by themselves. -/
inductive Mark where
  | bang
  | dollar
  | ampersand
  | openParenthesis
  | closeParenthesis
  | spread
  | colon
  | equals
  | at
  | openBracket
  | closeBracket
  | openBrace
  | bar
  | closeBrace
deriving DecidableEq, Repr

/-- The text of a mark. -/
def Mark.text : Mark → Text
  | .bang => "!"
  | .dollar => "$"
  | .ampersand => "&"
  | .openParenthesis => "("
  | .closeParenthesis => ")"
  | .spread => "..."
  | .colon => ":"
  | .equals => "="
  | .at => "@"
  | .openBracket => "["
  | .closeBracket => "]"
  | .openBrace => "\x7b"
  | .bar => "|"
  | .closeBrace => "\x7d"

/-- The marks of one code point. -/
def Mark.ofCodePoint? (codePoint : CodePoint) : Option Mark :=
  [Mark.bang, .dollar, .ampersand, .openParenthesis, .closeParenthesis, .colon, .equals, .at,
    .openBracket, .closeBracket, .openBrace, .bar, .closeBrace].find? fun mark =>
      mark.text = [codePoint]

/-- What a token is. -/
inductive TokenKind where
  | mark (sign : Mark)
  | name (content : Text)
  | integer (digits : Text)
  | float (digits : Text)
  | text (content : Text)
  | block (content : Text)
  | endOfDocument
deriving DecidableEq, Repr

/-- A token and the place where it begins. -/
structure Token where
  kind : TokenKind
  position : Nat
deriving DecidableEq, Repr

/-- What messages call a token. -/
def TokenKind.message : TokenKind → Text
  | .mark sign => sign.text.quote
  | .name content => "Name " ++ content.quote
  | .integer digits => "Int " ++ digits.quote
  | .float digits => "Float " ++ digits.quote
  | .text content => "String " ++ content.quote
  | .block content => "BlockString " ++ content.quote
  | .endOfDocument => "<EOF>"

/-- What a token says, where it says more than its kind. -/
def TokenKind.content? : TokenKind → Option Text
  | .mark _ => none
  | .name content => some content
  | .integer content => some content
  | .float content => some content
  | .text content => some content
  | .block content => some content
  | .endOfDocument => none

/-- Why a document cannot be read. -/
inductive Malformation where
  /-- A code point that begins no token. -/
  | unexpectedCodePoint (codePoint : CodePoint)
  /-- A surrogate between tokens. -/
  | invalidCodePoint (codePoint : CodePoint)
  /-- An apostrophe, which quotes nothing. -/
  | apostrophe
  /-- A digit behind a zero that begins a number. -/
  | digitAfterZero (codePoint : CodePoint)
  /-- Something else where a number needs a digit. -/
  | notDigit (found : Option CodePoint)
  /-- A text without an end. -/
  | unterminatedText
  /-- A surrogate inside a text. -/
  | invalidInText (codePoint : CodePoint)
  /-- A backslash with a letter that spells nothing. -/
  | invalidEscape (escape : Text)
  /-- An escape of digits that spells no code point. -/
  | invalidUnicodeEscape (escape : Text)
  /-- A token in the place of another one. -/
  | expected (wanted : Text) (found : TokenKind)
  /-- A token in a place where it means nothing. -/
  | unexpected (found : TokenKind)
  /-- A variable inside a value that has to be constant. -/
  | variableInConstant (name : Text)
  /-- An enum value named like another literal. -/
  | reservedEnumValue (found : TokenKind)
  /-- Lists, objects or selections within more of them than are read. -/
  | nestedTooDeeply
  /-- A description of something other than a definition. -/
  | descriptionOfExtension
  /-- A description of an unnamed query. -/
  | descriptionOfShorthand
deriving DecidableEq, Repr

/-- How a message shows what stands at a place. -/
def showSpot : Option CodePoint → Text
  | none => "<EOF>"
  | some codePoint =>
    if codePoint = CodePoint.ofChar '"' then "'\"'"
    else if 0x20 ≤ codePoint.value && codePoint.value ≤ 0x7E then Text.quote [codePoint]
    else "U+" ++ Text.padLeft 4 (Text.digitsIn 16 codePoint.value) '0'

/-- The words for a malformation. -/
def Malformation.message : Malformation → Text
  | .unexpectedCodePoint codePoint => "Unexpected character: " ++ showSpot (some codePoint) ++ "."
  | .invalidCodePoint codePoint => "Invalid character: " ++ showSpot (some codePoint) ++ "."
  | .apostrophe =>
    "Unexpected single quote character ('), did you mean to use a double quote (\")?"
  | .digitAfterZero codePoint =>
    "Invalid number, unexpected digit after 0: " ++ showSpot (some codePoint) ++ "."
  | .notDigit found => "Invalid number, expected digit but got: " ++ showSpot found ++ "."
  | .unterminatedText => "Unterminated string."
  | .invalidInText codePoint =>
    "Invalid character within String: " ++ showSpot (some codePoint) ++ "."
  | .invalidEscape escape => "Invalid character escape sequence: " ++ escape.quote ++ "."
  | .invalidUnicodeEscape escape => "Invalid Unicode escape sequence: " ++ escape.quote ++ "."
  | .expected wanted found => "Expected " ++ wanted ++ ", found " ++ found.message ++ "."
  | .unexpected found => "Unexpected " ++ found.message ++ "."
  | .variableInConstant name => "Unexpected variable '$" ++ name ++ "' in constant value."
  | .reservedEnumValue found =>
    found.message ++ " is reserved and cannot be used for an enum value."
  | .nestedTooDeeply => "Document is nested too deeply. Parsing aborted."
  | .descriptionOfExtension =>
    "Unexpected description, only GraphQL definitions support descriptions."
  | .descriptionOfShorthand =>
    "Unexpected description, descriptions are not supported on shorthand queries."

/-- Why reading a document failed: how it is malformed, and where. -/
structure ReadFault where
  cause : Malformation
  position : Nat
deriving DecidableEq, Repr

end SchemaOrder.Document
