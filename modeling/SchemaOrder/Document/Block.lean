import SchemaOrder.Text.Basic

/-!
# Block texts

This module holds what a text between three quotation marks says: its lines without
their common indentation and without the blank lines around them. It also holds how a
text is written in that form again.
-/

namespace SchemaOrder.Document

/-- How many blanks a line begins with. -/
def indentation (line : Text) : Nat :=
  (line.takeWhile CodePoint.isBlank).length

/-- Whether a line holds nothing but blanks. -/
def isBlankLine (line : Text) : Bool :=
  line.all CodePoint.isBlank

/-- The least indentation of some lines, those of blanks only left out. -/
def commonIndentation (lines : List Text) : Option Nat :=
  ((lines.filter fun line => !isBlankLine line).map indentation).min?

/-- The lines without those of blanks only at both ends. -/
def trimBlankLines (lines : List Text) : List Text :=
  ((lines.dropWhile isBlankLine).reverse.dropWhile isBlankLine).reverse

/-- The lines of a block text without the indentation that all lines but the first one
share, and without blank lines at both ends. -/
def dedent (lines : List Text) : List Text :=
  match lines with
  | [] => []
  | first :: others =>
    let kept :=
      match commonIndentation others with
      | some width => others.map (List.drop width)
      -- where all the others are blank, nothing of them is left
      | none => others.map fun _ => []
    let whole := first :: kept
    -- a line that is blank before the indentation is taken away is blank afterwards
    trimBlankLines whole

/-- What is known of a text while it is checked whether it can be written as a block. -/
structure BlockCheck where
  /-- Whether the current line has held nothing but blanks so far. -/
  isEmptyLine : Bool
  /-- Whether the current line begins with a blank. -/
  hasIndent : Bool
  /-- Whether all lines that are not empty begin with a blank. -/
  hasCommonIndent : Bool
  /-- Whether a line has ended already. -/
  seenLine : Bool

/-- Goes on with the check; `none` where a code point already settles that the text
cannot be written as a block. -/
def checkBlock (state : BlockCheck) : Text → Option BlockCheck
  | [] => some state
  | codePoint :: rest =>
    if codePoint.value = '\n'.toNat then
      if state.isEmptyLine && !state.seenLine then none
      else checkBlock ⟨true, false, state.hasCommonIndent, true⟩ rest
    else if codePoint.isBlank then
      checkBlock { state with hasIndent := state.hasIndent || state.isEmptyLine } rest
    else if codePoint.value ≤ 0x0F then none
    else
      checkBlock { state with
        hasCommonIndent := state.hasCommonIndent && state.hasIndent, isEmptyLine := false } rest

/-- Whether a block text can say exactly this: it has no blank line at either end, no
indentation that all its lines share, and no control characters. -/
def fitsBlock (text : Text) : Bool :=
  text.isEmpty ||
    match checkBlock ⟨true, false, true, false⟩ text with
    | none => false
    | some state => !state.isEmptyLine && !(state.hasCommonIndent && state.seenLine)

/-- A text between three quotation marks. It begins on a line of its own where it has
several lines or where its end would be misread. -/
def blockText (text : Text) : Text :=
  let escaped := text.replaceAll "\"\"\"" "\\\"\"\""
  let lines := escaped.lines
  let isSingleLine := lines.length ≤ 1
  let startsBlank (line : Text) : Bool := (line.head?.map CodePoint.isBlank).getD true
  let forcesLeadingLine := !isSingleLine && (lines.drop 1).all startsBlank
  let endsInMarks := escaped.endsWith "\\\"\"\""
  let forcesTrailingLine := (text.endsWith "\"" && !endsInMarks) || text.endsWith "\\"
  let isSpread := !isSingleLine || 70 < text.length || forcesTrailingLine ||
    forcesLeadingLine || endsInMarks
  let skipsLeadingLine := isSingleLine && (text.head?.map CodePoint.isBlank).getD false
  let leading : Text := if (isSpread && !skipsLeadingLine) || forcesLeadingLine then "\n" else []
  let trailing : Text := if isSpread || forcesTrailingLine then "\n" else []
  "\"\"\"" ++ leading ++ escaped ++ trailing ++ "\"\"\""

end SchemaOrder.Document
