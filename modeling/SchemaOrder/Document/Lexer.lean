import SchemaOrder.Document.Block
import SchemaOrder.Document.Token
import SchemaOrder.Text.Cursor

/-!
# Cutting a document into tokens

This module holds the reader of tokens. Blanks, commas, line ends, comments and the
byte order mark stand between tokens and mean nothing. A fault ends the list of tokens
at its place, since what stands before it may be at fault earlier.
-/

namespace SchemaOrder.Document

/-- Whether a code point ends a line. -/
def isLineEnd (codePoint : CodePoint) : Bool :=
  codePoint.value == '\n'.toNat || codePoint.value == '\r'.toNat

/-- What stands between tokens, comments apart. -/
def isIgnored (codePoint : CodePoint) : Bool :=
  codePoint.isBlank || isLineEnd codePoint || codePoint.value == ','.toNat ||
    codePoint.value == 0xFEFF

/-- How many code points make the character that a text begins with: two for a pair of
surrogates, none for a surrogate alone. -/
def characterLength : Text → Nat
  | [] => 0
  | first :: rest =>
    if !first.isSurrogate then 1
    else
      match rest with
      | second :: _ => if first.isHighSurrogate && second.isLowSurrogate then 2 else 0
      | [] => 0

/-- The place behind a comment. -/
def skipComment (fuel : Nat) (cursor : Cursor) : Cursor :=
  match fuel, cursor.rest with
  | 0, _ | _, [] => cursor
  | fuel + 1, codePoint :: _ =>
    if isLineEnd codePoint then cursor
    else
      match characterLength cursor.rest with
      | 0 => cursor
      | length => skipComment fuel (cursor.advance length)

/-- The place of the next token. -/
def skipIgnored (fuel : Nat) (cursor : Cursor) : Cursor :=
  match fuel with
  | 0 => cursor
  | fuel + 1 =>
    let next := cursor.skip isIgnored
    if next.startsWith '#' then
      skipIgnored fuel (skipComment next.rest.length (next.advance 1))
    else next

/-- The place behind digits, of which there has to be one. -/
def readDigits (cursor : Cursor) : Except ReadFault Cursor :=
  match cursor.rest.head? with
  | some codePoint =>
    if codePoint.isDigit then .ok (cursor.skip CodePoint.isDigit)
    else .error ⟨.notDigit (some codePoint), cursor.position⟩
  | none => .error ⟨.notDigit none, cursor.position⟩

/-- The place behind the digits before the decimal point. A zero stands alone. -/
def readWhole (cursor : Cursor) : Except ReadFault Cursor :=
  if cursor.startsWith '0' then
    let next := cursor.advance 1
    match next.rest.head? with
    | some codePoint =>
      if codePoint.isDigit then
        .error ⟨.digitAfterZero codePoint, next.position⟩
      else .ok next
    | none => .ok next
  else readDigits cursor

/-- The place behind an exponent, where one begins. -/
def readExponent (cursor : Cursor) : Except ReadFault Cursor :=
  let next := cursor.advance 1
  readDigits (if next.startsWith '+' || next.startsWith '-' then next.advance 1 else next)

/-- Reads a number. Neither a name nor a point may stand behind it. -/
def readNumber (cursor : Cursor) : Except ReadFault (Token × Cursor) := do
  let whole ← readWhole (if cursor.startsWith '-' then cursor.advance 1 else cursor)
  let fraction ← if whole.startsWith '.' then readDigits (whole.advance 1) else pure whole
  let finish ←
    if fraction.startsWith 'e' || fraction.startsWith 'E' then readExponent fraction
    else pure fraction
  let digits := cursor.rest.take (finish.position - cursor.position)
  let kind : TokenKind :=
    if finish.position = whole.position then .integer digits else .float digits
  match finish.rest.head? with
  | some codePoint =>
    if codePoint.isNameStart || codePoint = CodePoint.ofChar '.' then
      .error ⟨.notDigit (some codePoint), finish.position⟩
    else pure (⟨kind, cursor.position⟩, finish)
  | none => pure (⟨kind, cursor.position⟩, finish)

/-- The code point that a letter behind a backslash spells. -/
def simpleEscape? (letter : CodePoint) : Option CodePoint :=
  if letter = CodePoint.ofChar '"' || letter = CodePoint.ofChar '\\' ||
      letter = CodePoint.ofChar '/' then some letter
  else if letter = CodePoint.ofChar 'b' then some (CodePoint.ofNat 8)
  else if letter = CodePoint.ofChar 'f' then some (CodePoint.ofNat 12)
  else if letter = CodePoint.ofChar 'n' then some (CodePoint.ofChar '\n')
  else if letter = CodePoint.ofChar 'r' then some (CodePoint.ofChar '\r')
  else if letter = CodePoint.ofChar 't' then some (CodePoint.ofChar '\t')
  else none

/-- The value of the four hexadecimal digits at a place; `none` where one of them is no
digit or the document ends before the fourth. -/
def fourDigits? (text : Text) : Option Nat :=
  if text.length < 4 then none
  else
    (text.take 4).foldl (fun value codePoint => do
      let high ← value
      let low ← codePoint.hexDigit?
      pure (high * 16 + low)) (some 0)

/-- What an escape spells and how long it is. -/
abbrev Escape := CodePoint × Nat

/-- Reads an escape of four digits, or two of them that are a pair of surrogates. -/
def readFixedEscape (cursor : Cursor) : Except ReadFault Escape :=
  let invalid : Except ReadFault Escape :=
    .error ⟨.invalidUnicodeEscape (cursor.rest.take 6), cursor.position⟩
  match fourDigits? (cursor.rest.drop 2) with
  | none => invalid
  | some value =>
    let codePoint := CodePoint.ofNat value
    if !codePoint.isSurrogate then .ok (codePoint, 6)
    else if codePoint.isHighSurrogate && (cursor.advance 6).startsWithText "\\u" then
      match fourDigits? (cursor.rest.drop 8) with
      | none => invalid
      | some low =>
        if (CodePoint.ofNat low).isLowSurrogate then
          .ok (CodePoint.ofNat (0x10000 + (value - 0xD800) * 0x400 + (low - 0xDC00)), 12)
        else invalid
    else invalid

/-- Reads the digits of an escape between braces from the one at `size` on; `bound` is
where the escape has to have ended. -/
def readBracedDigits (fuel : Nat) (cursor : Cursor) (value size bound : Nat) :
    Except ReadFault Escape :=
  let invalid (length : Nat) : Except ReadFault Escape :=
    .error ⟨.invalidUnicodeEscape (cursor.rest.take length), cursor.position⟩
  match fuel with
  | 0 => invalid size
  | fuel + 1 =>
    if bound ≤ size then invalid size
    else
      match cursor.rest[size]? with
      | none => invalid size
      | some codePoint =>
        if codePoint = CodePoint.ofChar '\x7d' then
          if size + 1 < 5 || 0x10FFFF < value || (CodePoint.ofNat value).isSurrogate then
            invalid (size + 1)
          else .ok (CodePoint.ofNat value, size + 1)
        else
          match codePoint.hexDigit? with
          | none => invalid (size + 1)
          | some digit => readBracedDigits fuel cursor (value * 16 + digit) (size + 1) bound

/-- Reads an escape of any number of digits between braces. -/
def readBracedEscape (cursor : Cursor) : Except ReadFault Escape :=
  readBracedDigits 12 cursor 0 3 (min 12 cursor.rest.length)

/-- Reads what stands behind a backslash. -/
def readEscape (cursor : Cursor) : Except ReadFault Escape :=
  let letter := cursor.rest[1]?
  if letter = some (CodePoint.ofChar 'u') then
    if cursor.rest[2]? = some (CodePoint.ofChar '\x7b') then readBracedEscape cursor
    else readFixedEscape cursor
  else
    match letter.bind simpleEscape? with
    | some escaped => .ok (escaped, 2)
    | none => .error ⟨.invalidEscape (cursor.rest.take 2), cursor.position⟩

/-- Reads the inside of a text and its closing mark. What was read is kept backwards. -/
def readInside (fuel start : Nat) (cursor : Cursor) (known : Text) :
    Except ReadFault (Token × Cursor) :=
  match fuel, cursor.rest with
  | 0, _ | _, [] => .error ⟨.unterminatedText, cursor.position⟩
  | fuel + 1, codePoint :: rest =>
    if codePoint = CodePoint.ofChar '"' then
      .ok (⟨.text known.reverse, start⟩, cursor.advance 1)
    else if codePoint = CodePoint.ofChar '\\' then
      match readEscape cursor with
      | .error fault => .error fault
      | .ok (escaped, length) =>
        readInside fuel start (cursor.advance length) (escaped :: known)
    else if isLineEnd codePoint then .error ⟨.unterminatedText, cursor.position⟩
    else
      match characterLength cursor.rest with
      | 0 => .error ⟨.invalidInText codePoint, cursor.position⟩
      | 1 => readInside fuel start (cursor.advance 1) (codePoint :: known)
      | _ => readInside fuel start (cursor.advance 2) ((rest.take 1) ++ codePoint :: known)

/-- Reads the inside of a block text and its closing marks. The lines that are complete
and the one that is not are kept backwards. -/
def readBlockInside (fuel start : Nat) (cursor : Cursor) (lines : List Text) (line : Text) :
    Except ReadFault (Token × Cursor) :=
  match fuel, cursor.rest with
  | 0, _ | _, [] => .error ⟨.unterminatedText, cursor.position⟩
  | fuel + 1, codePoint :: rest =>
    if cursor.startsWithText "\"\"\"" then
      let whole := (line.reverse :: lines).reverse
      .ok (⟨.block (Text.join "\n" (dedent whole)), start⟩, cursor.advance 3)
    else if cursor.startsWithText "\\\"\"\"" then
      readBlockInside fuel start (cursor.advance 4) lines ((rest.take 3).reverse ++ line)
    else if cursor.startsWithText "\r\n" then
      readBlockInside fuel start (cursor.advance 2) (line.reverse :: lines) []
    else if isLineEnd codePoint then
      readBlockInside fuel start (cursor.advance 1) (line.reverse :: lines) []
    else
      match characterLength cursor.rest with
      | 0 => .error ⟨.invalidInText codePoint, cursor.position⟩
      | 1 => readBlockInside fuel start (cursor.advance 1) lines (codePoint :: line)
      | _ =>
        readBlockInside fuel start (cursor.advance 2) lines ((rest.take 1) ++ codePoint :: line)

/-- Reads the token that begins at the cursor; at the end of the document there is one,
too. -/
def readToken (cursor : Cursor) : Except ReadFault (Token × Cursor) :=
  match cursor.rest with
  | [] => .ok (⟨.endOfDocument, cursor.position⟩, cursor)
  | codePoint :: rest =>
    if cursor.startsWithText "\"\"\"" then
      readBlockInside rest.length cursor.position (cursor.advance 3) [] []
    else if codePoint = CodePoint.ofChar '"' then
      readInside (rest.length + 1) cursor.position (cursor.advance 1) []
    else if codePoint.isDigit || codePoint = CodePoint.ofChar '-' then readNumber cursor
    else if codePoint.isNameStart then
      let name := cursor.rest.takeWhile CodePoint.isNameContinue
      .ok (⟨.name name, cursor.position⟩, cursor.advance name.length)
    else if cursor.startsWithText "..." then
      .ok (⟨.mark .spread, cursor.position⟩, cursor.advance 3)
    else
      match Mark.ofCodePoint? codePoint with
      | some sign => .ok (⟨.mark sign, cursor.position⟩, cursor.advance 1)
      | none =>
        let cause : Malformation :=
          if codePoint = CodePoint.ofChar '\x27' then .apostrophe
          else if characterLength cursor.rest = 0 then .invalidCodePoint codePoint
          else .unexpectedCodePoint codePoint
        .error ⟨cause, cursor.position⟩

/-- The tokens of a document up to its end or up to the first fault. -/
structure TokenStream where
  /-- The tokens that could be read, the one at the end of the document included. -/
  tokens : List Token
  /-- Why there are no more tokens, if the end was not reached. -/
  fault : Option ReadFault
deriving Repr

/-- Reads the tokens from a place on; those before it are kept backwards. -/
def readTokens (fuel : Nat) (cursor : Cursor) (known : List Token) : TokenStream :=
  match fuel with
  | 0 => ⟨known.reverse, none⟩
  | fuel + 1 =>
    match readToken (skipIgnored (cursor.rest.length + 1) cursor) with
    | .error fault => ⟨known.reverse, some fault⟩
    | .ok (token, next) =>
      if token.kind = .endOfDocument then ⟨(token :: known).reverse, none⟩
      else readTokens fuel next (token :: known)

/-- The tokens of a text. Every token takes at least one code point, and the end takes
none, so that the length of the text bounds their number. -/
def TokenStream.ofText (source : Text) : TokenStream :=
  readTokens (source.length + 1) (Cursor.start source) []

end SchemaOrder.Document
