import SchemaOrder.Text.Basic

/-!
# UTF-8

This module holds the encoding of texts as bytes: the encoder, which refuses
surrogates, the decoder, which refuses everything that is no shortest form, and
the faults of both. Where a fault is reported and how it reads is fixed here, as
is the reading of a file as text, whose line ends all become line feeds.
-/

namespace SchemaOrder

/-- The content of a file, byte by byte. -/
abbrev Bytes := List UInt8

namespace Text

/-- Why bytes are not UTF-8. -/
inductive DecodingCause where
  | invalidStart
  | invalidContinuation
  | unexpectedEnd
deriving DecidableEq, Repr

/-- A place where bytes are not UTF-8: `length` bytes from `position` on, the first
of which is `byte`. -/
structure DecodingFault where
  cause : DecodingCause
  byte : UInt8
  position : Nat
  length : Nat
deriving DecidableEq, Repr

/-- A run of surrogates in a text, none of which has a form in UTF-8. -/
structure EncodingFault where
  codePoint : CodePoint
  position : Nat
  length : Nat
deriving DecidableEq, Repr

/-- The words for a cause. -/
def DecodingCause.message : DecodingCause → Text
  | .invalidStart => "invalid start byte"
  | .invalidContinuation => "invalid continuation byte"
  | .unexpectedEnd => "unexpected end of data"

/-- Two small hexadecimal digits of a byte. -/
def hexByte (byte : UInt8) : Text :=
  padLeft 2 (lower (digitsIn 16 byte.toNat)) '0'

/-- The words for undecodable bytes. -/
def DecodingFault.message (fault : DecodingFault) : Text :=
  let place : Text :=
    if fault.length = 1 then
      "byte 0x" ++ hexByte fault.byte ++ " in position " ++ ofNat fault.position
    else
      "bytes in position " ++ ofNat fault.position ++ "-" ++
        ofNat (fault.position + fault.length - 1)
  "'utf-8' codec can't decode " ++ place ++ ": " ++ fault.cause.message

/-- The words for a text that has no encoding. -/
def EncodingFault.message (fault : EncodingFault) : Text :=
  let place : Text :=
    if fault.length = 1 then
      "character '\\u" ++ padLeft 4 (lower (digitsIn 16 fault.codePoint.value)) '0' ++
        "' in position " ++ ofNat fault.position
    else
      "characters in position " ++ ofNat fault.position ++ "-" ++
        ofNat (fault.position + fault.length - 1)
  "'utf-8' codec can't encode " ++ place ++ ": surrogates not allowed"

/-- The bytes of one code point in the shortest form. -/
def encodeCodePoint (codePoint : CodePoint) : Bytes :=
  let value := codePoint.value
  let trailing (shift : Nat) : UInt8 := UInt8.ofNat (0x80 + value / Nat.pow 2 shift % 0x40)
  if value < 0x80 then [UInt8.ofNat value]
  else if value < 0x800 then [UInt8.ofNat (0xC0 + value / 0x40), trailing 0]
  else if value < 0x10000 then [UInt8.ofNat (0xE0 + value / 0x1000), trailing 6, trailing 0]
  else [UInt8.ofNat (0xF0 + value / 0x40000), trailing 12, trailing 6, trailing 0]

/-- The bytes of a text, surrogates written like any other code point of their size.
This is the order key of texts; it is UTF-8 for texts without surrogates. -/
def encodeLoosely (text : Text) : Bytes :=
  text.flatMap encodeCodePoint

/-- The first run of surrogates in a text whose first code point is at `position`. -/
def firstSurrogates (position : Nat) : Text → Option EncodingFault
  | [] => none
  | codePoint :: rest =>
    if codePoint.isSurrogate then
      some ⟨codePoint, position, 1 + (rest.takeWhile CodePoint.isSurrogate).length⟩
    else firstSurrogates (position + 1) rest

/-- The UTF-8 of a text. A text with surrogates has none. -/
def encode (text : Text) : Except EncodingFault Bytes :=
  match firstSurrogates 0 text with
  | some fault => .error fault
  | none => .ok (encodeLoosely text)

/-- The number of bytes of the form that a byte begins, and the part of the code
point the byte itself holds. -/
def startOfForm? (byte : UInt8) : Option (Nat × Nat) :=
  let value := byte.toNat
  if value < 0x80 then some (1, value)
  else if value < 0xC2 then none
  else if value < 0xE0 then some (2, value - 0xC0)
  else if value < 0xF0 then some (3, value - 0xE0)
  else if value < 0xF5 then some (4, value - 0xF0)
  else none

/-- Whether a byte may stand second behind the given first one, so that the form is
the shortest, no surrogate, and inside the last plane. -/
def mayFollow (first second : UInt8) : Bool :=
  let value := second.toNat
  if first.toNat = 0xE0 then 0xA0 ≤ value && value < 0xC0
  else if first.toNat = 0xED then 0x80 ≤ value && value < 0xA0
  else if first.toNat = 0xF0 then 0x90 ≤ value && value < 0xC0
  else if first.toNat = 0xF4 then 0x80 ≤ value && value < 0x90
  else 0x80 ≤ value && value < 0xC0

/-- Whether a byte may stand third or fourth in a form. -/
def isTrailing (byte : UInt8) : Bool :=
  0x80 ≤ byte.toNat && byte.toNat < 0xC0

/-- What a decoder that is inside a form still waits for. -/
structure Pending where
  /-- The first byte of the form. -/
  first : UInt8
  /-- The bytes of the form read so far. -/
  seen : Nat
  /-- The bytes of the form still to come. -/
  missing : Nat
  /-- The code point as far as it is known. -/
  value : Nat

/-- The decoder's walk; `position` is that of the next byte. -/
def decodeFrom (position : Nat) (pending : Option Pending) :
    Bytes → Except DecodingFault Text
  | [] =>
    match pending with
    | none => .ok []
    | some form =>
      .error ⟨.unexpectedEnd, form.first, position - form.seen, form.seen⟩
  | byte :: rest =>
    match pending with
    | none =>
      match startOfForm? byte with
      | none => .error ⟨.invalidStart, byte, position, 1⟩
      | some (1, value) =>
        (decodeFrom (position + 1) none rest).map (CodePoint.ofNat value :: ·)
      | some (size, value) => decodeFrom (position + 1) (some ⟨byte, 1, size - 1, value⟩) rest
    | some form =>
      let accepted := if form.seen = 1 then mayFollow form.first byte else isTrailing byte
      if !accepted then
        .error ⟨.invalidContinuation, form.first, position - form.seen, form.seen⟩
      else
        let value := form.value * 0x40 + (byte.toNat - 0x80)
        if form.missing ≤ 1 then
          (decodeFrom (position + 1) none rest).map (CodePoint.ofNat value :: ·)
        else
          decodeFrom (position + 1)
            (some ⟨form.first, form.seen + 1, form.missing - 1, value⟩) rest

/-- The text whose UTF-8 the bytes are. -/
def decode (bytes : Bytes) : Except DecodingFault Text :=
  decodeFrom 0 none bytes

/-- The text with every line end, be it a carriage return, a line feed or both,
written as a line feed. -/
def unifyLineEnds (text : Text) : Text :=
  join [CodePoint.ofChar '\n'] (lines text)

/-- The text a file with these bytes is read as. -/
def ofFile (bytes : Bytes) : Except DecodingFault Text :=
  (decode bytes).map unifyLineEnds

end Text

end SchemaOrder
