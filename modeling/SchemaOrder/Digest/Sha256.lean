import SchemaOrder.Text.Utf8

/-!
# SHA-256

This module holds the digest SHA-256 of a list of bytes: the message is padded to whole
blocks, every block is spread over a schedule of 64 words, and one round for each word
mixes it into eight working words. A digest is shown as 64 hexadecimal digits.
-/

namespace SchemaOrder.Sha256

/-- The eight words that the digest is carried in. -/
structure Working where
  a : UInt32
  b : UInt32
  c : UInt32
  d : UInt32
  e : UInt32
  f : UInt32
  g : UInt32
  h : UInt32
deriving DecidableEq, Repr

namespace Working

/-- The words one by one. -/
def words (working : Working) : List UInt32 :=
  [working.a, working.b, working.c, working.d, working.e, working.f, working.g, working.h]

/-- The sums of words in the same place. -/
def add (left right : Working) : Working :=
  ⟨left.a + right.a, left.b + right.b, left.c + right.c, left.d + right.d,
    left.e + right.e, left.f + right.f, left.g + right.g, left.h + right.h⟩

end Working

/-- The words before the first block: the first 32 bits of the fractional parts of the
square roots of the first eight primes. -/
def initial : Working :=
  ⟨0x6a09e667, 0xbb67ae85, 0x3c6ef372, 0xa54ff53a, 0x510e527f, 0x9b05688c, 0x1f83d9ab,
    0x5be0cd19⟩

/-- One constant for each round: the first 32 bits of the fractional parts of the cube
roots of the first 64 primes. -/
def roundConstants : List UInt32 := [
  0x428a2f98, 0x71374491, 0xb5c0fbcf, 0xe9b5dba5, 0x3956c25b, 0x59f111f1, 0x923f82a4, 0xab1c5ed5,
  0xd807aa98, 0x12835b01, 0x243185be, 0x550c7dc3, 0x72be5d74, 0x80deb1fe, 0x9bdc06a7, 0xc19bf174,
  0xe49b69c1, 0xefbe4786, 0x0fc19dc6, 0x240ca1cc, 0x2de92c6f, 0x4a7484aa, 0x5cb0a9dc, 0x76f988da,
  0x983e5152, 0xa831c66d, 0xb00327c8, 0xbf597fc7, 0xc6e00bf3, 0xd5a79147, 0x06ca6351, 0x14292967,
  0x27b70a85, 0x2e1b2138, 0x4d2c6dfc, 0x53380d13, 0x650a7354, 0x766a0abb, 0x81c2c92e, 0x92722c85,
  0xa2bfe8a1, 0xa81a664b, 0xc24b8b70, 0xc76c51a3, 0xd192e819, 0xd6990624, 0xf40e3585, 0x106aa070,
  0x19a4c116, 0x1e376c08, 0x2748774c, 0x34b0bcb5, 0x391c0cb3, 0x4ed8aa4a, 0x5b9cca4f, 0x682e6ff3,
  0x748f82ee, 0x78a5636f, 0x84c87814, 0x8cc70208, 0x90befffa, 0xa4506ceb, 0xbef9a3f7, 0xc67178f2]

/-- A word turned to the right. -/
def rotate (word count : UInt32) : UInt32 :=
  (word >>> count) ||| (word <<< (32 - count))

/-- The bytes of a number of the given width, the most significant one first. -/
def bigEndian (width number : Nat) : Bytes :=
  (List.range width).map fun place => UInt8.ofNat (number >>> (8 * (width - 1 - place)))

/-- The message with a single bit behind it, then as few zeros as fill whole blocks
together with the length of the message in bits. -/
def padded (message : Bytes) : Bytes :=
  let zeros := (119 - message.length % 64) % 64
  message ++ [0x80] ++ List.replicate zeros 0 ++ bigEndian 8 (8 * message.length)

/-- The words that bytes make, four for each. -/
def wordsOf : Bytes → List UInt32
  | first :: second :: third :: fourth :: rest =>
    (first.toUInt32 <<< 24 ||| second.toUInt32 <<< 16 ||| third.toUInt32 <<< 8 |||
      fourth.toUInt32) :: wordsOf rest
  | _ => []

/-- The next word of a schedule, whose last words are given, the latest one first. -/
def nextWord (latest : List UInt32) : UInt32 :=
  let early := latest.getD 14 0
  let late := latest.getD 1 0
  let spreadEarly := rotate early 7 ^^^ rotate early 18 ^^^ early >>> 3
  let spreadLate := rotate late 17 ^^^ rotate late 19 ^^^ late >>> 10
  latest.getD 15 0 + spreadEarly + latest.getD 6 0 + spreadLate

/-- The 64 words over which the sixteen words of a block are spread. -/
def schedule (block : List UInt32) : List UInt32 :=
  ((List.range 48).foldl (fun latest _ => nextWord latest :: latest) block.reverse).reverse

/-- One round with a word of the schedule and its constant. -/
def round (working : Working) (word constant : UInt32) : Working :=
  let e := working.e
  let a := working.a
  let choice := (e &&& working.f) ^^^ (~~~e &&& working.g)
  let majority := (a &&& working.b) ^^^ (a &&& working.c) ^^^ (working.b &&& working.c)
  let first := working.h + (rotate e 6 ^^^ rotate e 11 ^^^ rotate e 25) + choice + constant + word
  let second := (rotate a 2 ^^^ rotate a 13 ^^^ rotate a 22) + majority
  ⟨first + second, a, working.b, working.c, working.d + first, e, working.f, working.g⟩

/-- All rounds of a block. -/
def compress (working : Working) (block : List UInt32) : Working :=
  let rounds := (schedule block).zip roundConstants
  working.add (rounds.foldl (fun mixed entry => round mixed entry.1 entry.2) working)

/-- The blocks of a padded message. -/
def blocks (words : List UInt32) : List (List UInt32) :=
  (List.range (words.length / 16)).map fun index => (words.drop (16 * index)).take 16

/-- The digest of a message, as words. -/
def digest (message : Bytes) : Working :=
  (blocks (wordsOf (padded message))).foldl compress initial

/-- The digest of a message as it is shown. -/
def hexDigest (message : Bytes) : Text :=
  (digest message).words.flatMap fun word =>
    Text.padLeft 8 (Text.lower (Text.digitsIn 16 word.toNat)) '0'

end SchemaOrder.Sha256
