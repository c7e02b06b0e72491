import SchemaOrder.Text.Basic

/-!
# Excerpts

This module holds how a message points at a place of a document: the line and the
column, and the line itself between its neighbours with a caret below the place. A line
that is too long is shown in pieces.
-/

namespace SchemaOrder.Document

/-- A line and a column, both counted from one. -/
structure Location where
  line : Nat
  column : Nat
deriving DecidableEq, Repr

/-- The location of a place in a text. -/
def Location.ofPosition (source : Text) (position : Nat) : Location :=
  go source position ⟨1, 1⟩ false
where
  /-- The walk along the text; `afterReturn` holds behind a carriage return, with which
  a line feed makes one line end. -/
  go : Text → Nat → Location → Bool → Location
    | [], remaining, location, _ => ⟨location.line, location.column + remaining⟩
    | _ :: _, 0, location, _ => location
    | codePoint :: rest, remaining + 1, location, afterReturn =>
      if codePoint.value = '\n'.toNat then
        if afterReturn then go rest remaining ⟨location.line, 1⟩ false
        else go rest remaining ⟨location.line + 1, 1⟩ false
      else if codePoint.value = '\r'.toNat then
        go rest remaining ⟨location.line + 1, 1⟩ true
      else go rest remaining ⟨location.line, location.column + 1⟩ false

/-- Lines with what stands before them, all of the width of the widest. An empty line
has no blank behind what stands before it. -/
def margined (lines : List (Text × Text)) : Text :=
  let width := (lines.map fun line => line.1.length).foldl max 0
  Text.join "\n" <| lines.map fun (margin, line) =>
    Text.padLeft width margin ++ (if line.isEmpty then line else CodePoint.ofChar ' ' :: line)

/-- A caret in a column. -/
def caret (column : Nat) : Text :=
  Text.padLeft column "^"

/-- The widest line that is shown in one piece. -/
def longestLine : Nat := 120

/-- The width of the pieces of a longer line. -/
def pieceWidth : Nat := 80

/-- A text cut into pieces of one width. -/
def pieces (text : Text) : List Text :=
  (List.range ((text.length + pieceWidth - 1) / pieceWidth)).map fun index =>
    (text.drop (index * pieceWidth)).take pieceWidth

/-- The margin of a numbered line. -/
def numbered (line : Nat) : Text :=
  Text.ofNat line ++ " |"

/-- The lines around a place of a text, with a caret below the place. -/
def excerptAt (source : Text) (position : Nat) : Text :=
  let location := Location.ofPosition source position
  let lines := source.lines
  let index := location.line - 1
  let line := lines.getD index []
  let heading :=
    "GraphQL request:" ++ Text.ofNat location.line ++ ":" ++ Text.ofNat location.column ++ "\n"
  if longestLine < line.length then
    let cut := pieces line
    let reached := location.column / pieceWidth
    let first := (numbered location.line, cut.getD 0 [])
    let middle := ((cut.drop 1).take reached).map fun piece => (Text.ofString "|", piece)
    let pointer := (Text.ofString "|", caret (location.column % pieceWidth))
    let last := ((cut.drop (reached + 1)).take 1).map fun piece => (Text.ofString "|", piece)
    heading ++ margined ([first] ++ middle ++ [pointer] ++ last)
  else
    let before :=
      if index = 0 then [] else [(numbered (location.line - 1), lines.getD (index - 1) [])]
    let after := ((lines.drop (index + 1)).take 1).map fun next =>
      (numbered (location.line + 1), next)
    heading ++ margined (before ++
      [(numbered location.line, line), (Text.ofString "|", caret location.column)] ++ after)

end SchemaOrder.Document
