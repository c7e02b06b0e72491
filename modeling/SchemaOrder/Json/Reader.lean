import SchemaOrder.Json.Value
import SchemaOrder.Text.Cursor

/-!
# Reading JSON

This module holds the reader of JSON texts and its faults. Beyond the standard it
admits the words for infinities and for the value that is no number; it takes the
last of several members with one name. A fault has the position at which the reader
gave up, counted in code points.
-/

namespace SchemaOrder

namespace Json

/-- Why a text is not JSON. -/
inductive Malformation where
  | byteOrderMark
  | expectingValue
  | expectingName
  | expectingColon
  | expectingComma
  | extraData
  | unterminatedText
  | controlCharacter
  | invalidEscape
  | invalidUnicodeEscape
deriving DecidableEq, Repr

/-- The words for a malformation. -/
def Malformation.message : Malformation → Text
  | .byteOrderMark => "Unexpected UTF-8 BOM (decode using utf-8-sig)"
  | .expectingValue => "Expecting value"
  | .expectingName => "Expecting property name enclosed in double quotes"
  | .expectingColon => "Expecting ':' delimiter"
  | .expectingComma => "Expecting ',' delimiter"
  | .extraData => "Extra data"
  | .unterminatedText => "Unterminated string starting at"
  | .controlCharacter => "Invalid control character at"
  | .invalidEscape => "Invalid \\escape"
  | .invalidUnicodeEscape => "Invalid \\uXXXX escape"

/-- Why reading failed: the text is malformed at a position, or it holds an integer of
more digits than are read. -/
inductive ReadFault where
  | malformed (cause : Malformation) (position : Nat)
  | integerTooLong (digits : Nat)
deriving DecidableEq, Repr

/-- The most digits an integer may have. -/
def integerWidthBound : Nat := 4300

/-- The words for an integer of too many digits. -/
def integerTooLongMessage (digits : Nat) : Text :=
  "Exceeds the limit (4300 digits) for integer string conversion: value has " ++
    Text.ofNat digits ++
    " digits; use sys.set_int_max_str_digits() to increase the limit"

/-- The words for a malformation at a position of a text, with line and column. -/
def Malformation.messageAt (cause : Malformation) (position : Nat) (source : Text) : Text :=
  let before := source.take position
  let line := before.count (CodePoint.ofChar '\n') + 1
  let column := (before.reverse.takeWhile (· ≠ CodePoint.ofChar '\n')).length + 1
  cause.message ++ ": line " ++ Text.ofNat line ++ " column " ++ Text.ofNat column ++
    " (char " ++ Text.ofNat position ++ ")"

/-- The words for a fault found in a text. -/
def ReadFault.message (source : Text) : ReadFault → Text
  | .malformed cause position => cause.messageAt position source
  | .integerTooLong digits => integerTooLongMessage digits

/-- The blanks between the parts of a JSON text. -/
def isSpace (codePoint : CodePoint) : Bool :=
  codePoint.isBlank || codePoint.value == '\n'.toNat || codePoint.value == '\r'.toNat

end Json

namespace Cursor

/-- The place of the next code point that is no blank. -/
def skipSpace (cursor : Cursor) : Cursor :=
  cursor.skip Json.isSpace

/-- A malformation at the place. -/
def malformed {α : Type} (cursor : Cursor) (cause : Json.Malformation) :
    Except Json.ReadFault α :=
  .error (.malformed cause cursor.position)

end Cursor

namespace Json

/-- The value of four hexadecimal digits. -/
def fourHexDigits? : Text → Option Nat
  | first :: second :: third :: fourth :: _ => do
    let a ← first.hexDigit?
    let b ← second.hexDigit?
    let c ← third.hexDigit?
    let d ← fourth.hexDigit?
    pure (((a * 16 + b) * 16 + c) * 16 + d)
  | _ => none

/-- The low surrogate that an escape at the beginning of the text spells. At least one
code point has to follow the escape, and its digits must be digits: the result is
`none` where no escape stands, and `some none` where the escape is none of a low
surrogate. A broken escape is a malformation. -/
def lowSurrogate? (position : Nat) (rest : Text) : Except ReadFault (Option Nat) :=
  match rest with
  | backslash :: letter :: digits =>
    if backslash = CodePoint.ofChar '\\' && letter = CodePoint.ofChar 'u' &&
        5 ≤ (digits.take 5).length then
      match fourHexDigits? digits with
      | none => .error (.malformed .invalidUnicodeEscape (position + 1))
      | some value =>
        if (CodePoint.ofNat value).isLowSurrogate then .ok (some value) else .ok none
    else .ok none
  | _ => .ok none

/-- The code point that a letter behind a backslash spells. -/
def simpleEscape? (letter : CodePoint) : Option CodePoint :=
  if letter = CodePoint.ofChar '"' || letter = CodePoint.ofChar '\\' ||
      letter = CodePoint.ofChar '/' then some letter
  else if letter = CodePoint.ofChar 'b' then some (CodePoint.ofNat 8)
  else if letter = CodePoint.ofChar 'f' then some (CodePoint.ofNat 12)
  else if letter = CodePoint.ofChar 'n' then some (CodePoint.ofChar '\n')
  else if letter = CodePoint.ofChar 'r' then some (CodePoint.ofChar '\r')
  else if letter = CodePoint.ofChar 't' then some (CodePoint.ofChar '\t')
  else none

/-- Reads the inside of a text whose opening mark stood at `start`, up to and with the
closing mark. What was read is kept backwards in `known`. -/
def readInside (fuel start : Nat) (cursor : Cursor) (known : Text) :
    Except ReadFault (Text × Cursor) :=
  match fuel, cursor.rest with
  | 0, _ | _, [] => .error (.malformed .unterminatedText start)
  | fuel + 1, codePoint :: rest =>
    if codePoint = CodePoint.ofChar '"' then .ok (known.reverse, cursor.advance 1)
    else if codePoint = CodePoint.ofChar '\\' then
      match rest with
      | [] => .error (.malformed .unterminatedText start)
      | letter :: digits =>
        if letter = CodePoint.ofChar 'u' then
          if (digits.take 5).length < 5 then
            .error (.malformed .invalidUnicodeEscape (cursor.position + 1))
          else
            match fourHexDigits? digits with
            | none => .error (.malformed .invalidUnicodeEscape (cursor.position + 1))
            | some value =>
              let first := CodePoint.ofNat value
              let next := cursor.advance 6
              if first.isHighSurrogate then
                match lowSurrogate? next.position next.rest with
                | .error fault => .error fault
                | .ok (some low) =>
                  let joined := 0x10000 + (value - 0xD800) * 0x400 + (low - 0xDC00)
                  readInside fuel start (next.advance 6) (CodePoint.ofNat joined :: known)
                | .ok none => readInside fuel start next (first :: known)
              else readInside fuel start next (first :: known)
        else
          match simpleEscape? letter with
          | some escaped => readInside fuel start (cursor.advance 2) (escaped :: known)
          | none => cursor.malformed .invalidEscape
    else if codePoint.value < 0x20 then cursor.malformed .controlCharacter
    else readInside fuel start (cursor.advance 1) (codePoint :: known)

/-- How many code points stand before the mark that closes a text, and the mark itself. -/
def insideLength : Text → Nat
  | [] => 0
  | [_] => 1
  | first :: second :: rest =>
    if first = CodePoint.ofChar '"' then 1
    else if first = CodePoint.ofChar '\\' then insideLength rest + 2
    else insideLength (second :: rest) + 1

/-- Reads a text whose opening mark stands at the cursor. Every step of the reader takes at
least one code point. -/
def readText (cursor : Cursor) : Except ReadFault (Text × Cursor) :=
  let inside := cursor.advance 1
  readInside (insideLength inside.rest + 1) cursor.position inside []

/-- The parts of a number: its sign, its whole digits, the digits behind the point and
its exponent, where it has them. -/
structure NumberParts where
  negative : Bool
  whole : Text
  fraction : Option Text
  exponent : Option Int
  length : Nat

/-- The digits of an exponent at the beginning of a text, its value and how much of the
text it takes. -/
def exponentParts? (rest : Text) : Option (Int × Nat) :=
  match rest with
  | [] => none
  | letter :: others =>
    if letter.lower = CodePoint.ofChar 'e' then
      let signed : Bool × Bool × Text :=
        match others with
        | sign :: digits =>
          if sign = CodePoint.ofChar '-' then (true, true, digits)
          else if sign = CodePoint.ofChar '+' then (true, false, digits)
          else (false, false, others)
        | [] => (false, false, [])
      let digits := signed.2.2.takeWhile CodePoint.isDigit
      if digits.isEmpty then none
      else
        let size : Int := Text.digitsValue digits
        some (if signed.2.1 then -size else size,
          1 + (if signed.1 then 1 else 0) + digits.length)
    else none

/-- The number that begins a text, if one does. -/
def numberParts? (text : Text) : Option NumberParts :=
  let negative := text.head? = some (CodePoint.ofChar '-')
  let unsigned := if negative then text.drop 1 else text
  let run := unsigned.takeWhile CodePoint.isDigit
  let whole := if run.head? = some (CodePoint.ofChar '0') then run.take 1 else run
  if whole.isEmpty then none
  else
    let behind := unsigned.drop whole.length
    let fraction : Option Text :=
      if behind.head? = some (CodePoint.ofChar '.') then
        let digits := (behind.drop 1).takeWhile CodePoint.isDigit
        if digits.isEmpty then none else some digits
      else none
    let fractionLength := match fraction with
      | some digits => digits.length + 1
      | none => 0
    let exponent := exponentParts? (behind.drop fractionLength)
    let exponentLength := match exponent with
      | some (_, length) => length
      | none => 0
    some ⟨negative, whole, fraction, exponent.map (·.1),
      (if negative then 1 else 0) + whole.length + fractionLength + exponentLength⟩

/-- The value of a number: an integer where it has neither fraction nor exponent. -/
def NumberParts.value (parts : NumberParts) : Except ReadFault Json :=
  match parts.fraction, parts.exponent with
  | none, none =>
    if integerWidthBound < parts.whole.length then
      .error (.integerTooLong parts.whole.length)
    else
      let size : Int := Text.digitsValue parts.whole
      .ok (.integer (if parts.negative then -size else size))
  | fraction, exponent =>
    let fraction := fraction.getD []
    .ok (.float (Binary64.ofDecimal parts.negative (Text.digitsValue (parts.whole ++ fraction))
      (exponent.getD 0 - fraction.length)))

/-- The words that are values, longest first where one begins another. -/
def words : List (Text × Json) :=
  [("null", .null), ("true", .boolean true), ("false", .boolean false),
    ("NaN", .float .nan), ("Infinity", .float (.infinite false)),
    ("-Infinity", .float (.infinite true))]

/-- Reads a word or a number. -/
def readAtom (cursor : Cursor) : Except ReadFault (Json × Cursor) :=
  match words.find? fun word => word.1.isPrefixOf cursor.rest with
  | some (word, value) => .ok (value, cursor.advance word.length)
  | none =>
    match numberParts? cursor.rest with
    | none => cursor.malformed .expectingValue
    | some parts => parts.value.map fun value => (value, cursor.advance parts.length)

mutual

/-- Reads the value that begins at the cursor. -/
def readValue (fuel : Nat) (cursor : Cursor) : Except ReadFault (Json × Cursor) :=
  match fuel with
  | 0 => cursor.malformed .expectingValue
  | fuel + 1 =>
    if cursor.startsWith '"' then
      (readText cursor).map fun (content, next) => (.text content, next)
    else if cursor.startsWith '\x7b' then
      let inside := (cursor.advance 1).skipSpace
      if inside.startsWith '\x7d' then .ok (.object [], inside.advance 1)
      else (readMembers fuel inside []).map fun (members, next) => (ofMembers members, next)
    else if cursor.startsWith '[' then
      let inside := (cursor.advance 1).skipSpace
      if inside.startsWith ']' then .ok (.array [], inside.advance 1)
      else (readItems fuel inside []).map fun (items, next) => (.array items, next)
    else readAtom cursor

/-- Reads the items of an array from the first one that is missing to its end. -/
def readItems (fuel : Nat) (cursor : Cursor) (known : List Json) :
    Except ReadFault (List Json × Cursor) :=
  match fuel with
  | 0 => cursor.malformed .expectingValue
  | fuel + 1 =>
    match readValue fuel cursor with
    | .error fault => .error fault
    | .ok (item, next) =>
      let next := next.skipSpace
      if next.startsWith ']' then .ok ((item :: known).reverse, next.advance 1)
      else if next.startsWith ',' then
        readItems fuel (next.advance 1).skipSpace (item :: known)
      else next.malformed .expectingComma

/-- Reads the members of an object from the first one that is missing to its end. -/
def readMembers (fuel : Nat) (cursor : Cursor) (known : List (Text × Json)) :
    Except ReadFault (List (Text × Json) × Cursor) :=
  match fuel with
  | 0 => cursor.malformed .expectingName
  | fuel + 1 =>
    if !cursor.startsWith '"' then cursor.malformed .expectingName
    else
      match readText cursor with
      | .error fault => .error fault
      | .ok (name, next) =>
        let next := next.skipSpace
        if !next.startsWith ':' then next.malformed .expectingColon
        else
          match readValue fuel (next.advance 1).skipSpace with
          | .error fault => .error fault
          | .ok (value, next) =>
            let next := next.skipSpace
            if next.startsWith '\x7d' then
              .ok (((name, value) :: known).reverse, next.advance 1)
            else if next.startsWith ',' then
              readMembers fuel (next.advance 1).skipSpace ((name, value) :: known)
            else next.malformed .expectingComma

end

/-- The value that a text is the JSON of. Every step of the reader takes at least one
code point, so that the length of the text bounds their number. -/
def parse (source : Text) : Except ReadFault Json :=
  if source.head? = some (CodePoint.ofNat 0xFEFF) then
    .error (.malformed .byteOrderMark 0)
  else
    match readValue (2 * source.length + 2) (Cursor.start source).skipSpace with
    | .error fault => .error fault
    | .ok (value, next) =>
      let next := next.skipSpace
      if next.rest.isEmpty then .ok value else next.malformed .extraData

end Json

end SchemaOrder
