import SchemaOrder.Order.Collator

/-!
# Collation of ASCII names

This module holds the collation that the program uses. The names of a schema consist of
letters, digits and underscores of ASCII, so that it needs no tables: underscores come
first, then digits, then letters without regard to case; case decides where nothing else
does. It knows no locale.
-/

namespace SchemaOrder.AsciiCollation

/-- The code points of a name that are compared: all of them, or all but underscores. -/
def compared (settings : CollatorSettings) (name : Text) : Text :=
  if settings.ignorePunctuation then name.filter (· ≠ CodePoint.ofChar '_') else name

/-- The bytes by which a code point is compared regardless of its case. -/
def codePointKey (codePoint : CodePoint) : Bytes :=
  if codePoint = CodePoint.ofChar '_' then [1] else Text.encodeCodePoint codePoint.lower

/-- The bytes by which digits are compared as a number: how many digits the number has
without leading zeros, then these. A mark in front keeps numbers among digits. -/
def numberKey (digits : Text) : Bytes :=
  let significant := digits.dropWhile (· = CodePoint.ofChar '0')
  [UInt8.ofNat '0'.toNat, UInt8.ofNat significant.length] ++ Text.encodeLoosely significant

/-- The bytes by which a name is compared regardless of case. Where digits are compared as
numbers, `run` holds the digits read last, the latest one first. -/
def baseKey (isNumeric : Bool) (run : Text) : Text → Bytes
  | [] => if run.isEmpty then [] else numberKey run.reverse
  | codePoint :: rest =>
    if isNumeric && codePoint.isDigit then baseKey isNumeric (codePoint :: run) rest
    else
      let number := if run.isEmpty then [] else numberKey run.reverse
      number ++ codePointKey codePoint ++ baseKey isNumeric [] rest

/-- The bytes by which the case of a name is compared. -/
def caseKey (caseFirst : CaseFirst) (name : Text) : Bytes :=
  name.map fun codePoint =>
    let isCapital := codePoint.isWithin 'A' 'Z'
    if isCapital = (caseFirst = .upper) then 1 else 2

/-- The bytes by which a collator of given settings compares a name. -/
def key : Collation := fun settings name =>
  let name := compared settings name
  let base := baseKey settings.numeric [] name
  if settings.strength = .tertiary || settings.caseLevel then
    base ++ [0] ++ caseKey settings.caseFirst name
  else base

end SchemaOrder.AsciiCollation
