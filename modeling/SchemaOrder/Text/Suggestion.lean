import SchemaOrder.Text.Basic

/-!
# Suggestions

This module holds which of the known names a message suggests in the place of an unknown
one: those at a small edit distance, the nearest first. Inserting, deleting or replacing
a code point and exchanging two neighbours each count one; a difference in case only
counts one as a whole.
-/

namespace SchemaOrder.Text

/-- A row of the table of distances between the beginnings of two texts: that of the empty
beginning first. -/
abbrev DistanceRow := List Nat

/-- The cells of the next row behind its first one. `above` is the row before and `left`
the cell to the left; `skipped` is the row before that one, with which an exchange of
neighbours is counted where `previous`, the code point of the row before, is known. -/
def nextCells (current : CodePoint) (previous : Option CodePoint) (columns : Text)
    (columnBefore : Option CodePoint) (above skipped : DistanceRow) (left : Nat) :
    DistanceRow :=
  match columns, above with
  | column :: others, diagonal :: up :: further =>
    let cost := if current = column then 0 else 1
    let plain := min (min (up + 1) (left + 1)) (diagonal + cost)
    let exchanged :=
      match previous, columnBefore, skipped with
      | some before, some beforeColumn, corner :: _ =>
        if current = beforeColumn && before = column then min plain (corner + 1) else plain
      | _, _, _ => plain
    let skippedNext := if columnBefore.isSome then skipped.drop 1 else skipped
    exchanged :: nextCells current previous others (some column) (up :: further) skippedNext
      exchanged
  | _, _ => []

/-- The distance of two texts along the rows of their table; `none` as soon as a row holds
nothing within the threshold. -/
def distanceFrom (threshold index : Nat) (rows columns : Text)
    (previous : Option CodePoint) (above skipped : DistanceRow) : Option Nat :=
  match rows with
  | [] => above.getLast?.filter fun distance => distance ≤ threshold
  | current :: rest =>
    let row := index :: nextCells current previous columns none above skipped index
    if row.all fun cell => threshold < cell then none
    else distanceFrom threshold (index + 1) rest columns (some current) row above

/-- The distance between two texts in small letters, if it is within a threshold. -/
def editDistance? (threshold : Nat) (left right : Text) : Option Nat :=
  let rows := if left.length < right.length then right else left
  let columns := if left.length < right.length then left else right
  if threshold < rows.length - columns.length then none
  else
    distanceFrom threshold 1 rows columns none (List.range (columns.length + 1)) []

/-- The distance between two names, if it is within a threshold. -/
def nameDistance? (threshold : Nat) (input option : Text) : Option Nat :=
  if input = option then some 0
  else if input.lower = option.lower then some 1
  else editDistance? threshold option.lower input.lower

/-- A run of a text: of digits, with their number, or of other code points. -/
inductive Run where
  | digits (value : Nat) (text : Text)
  | others (text : Text)

/-- The runs of a text, which begin and end with one of other code points. -/
def runs (text : Text) : List Run :=
  go text [] []
where
  /-- The walk along the text; the current run is kept backwards, be it of digits or of
  other code points. -/
  go : Text → Text → Text → List Run
    | [], others, [] => [.others others.reverse]
    | [], others, digits =>
      [.others others.reverse, .digits (digitsValue digits.reverse) digits.reverse,
        .others []]
    | codePoint :: rest, others, digits =>
      if codePoint.isDigit then go rest others (codePoint :: digits)
      else if digits.isEmpty then go rest (codePoint :: others) []
      else
        .others others.reverse :: .digits (digitsValue digits.reverse) digits.reverse ::
          go rest [codePoint] []

/-- The natural order of texts: runs of digits stand by their numbers. -/
def isNaturallyAtMost : List Run → List Run → Bool
  | [], _ => true
  | _ :: _, [] => false
  | .digits leftValue leftText :: lefts, .digits rightValue rightText :: rights =>
    if leftValue ≠ rightValue then leftValue < rightValue
    else if leftText ≠ rightText then isAtMost leftText rightText
    else isNaturallyAtMost lefts rights
  | .others leftText :: lefts, .others rightText :: rights =>
    if leftText ≠ rightText then isAtMost leftText rightText
    else isNaturallyAtMost lefts rights
  | .digits .. :: _, .others _ :: _ => true
  | .others _ :: _, .digits .. :: _ => false

/-- The options near a text, nearest first; options at the same distance stand in natural
order. Two fifths of the length of the text may differ, and one code point more. -/
def suggestions (input : Text) (options : List Text) : List Text :=
  let threshold := input.length * 2 / 5 + 1
  let near := options.eraseDups.filterMap fun option =>
    (nameDistance? threshold input option).map fun distance => (distance, option)
  let sorted := near.mergeSort fun left right =>
    left.1 < right.1 ||
      (left.1 = right.1 && isNaturallyAtMost (runs left.2) (runs right.2))
  sorted.map (·.2)

/-- The most names that are suggested. -/
def mostSuggestions : Nat := 5

/-- The question at the end of a message that suggests names, if there are any. -/
def didYouMean (suggested : List Text) : Text :=
  match (suggested.take mostSuggestions).map quote with
  | [] => []
  | [only] => " Did you mean " ++ only ++ "?"
  | [first, second] => " Did you mean " ++ first ++ " or " ++ second ++ "?"
  | several =>
    " Did you mean " ++ join ", " several.dropLast ++ ", or " ++ several.getLastD [] ++ "?"

end SchemaOrder.Text
