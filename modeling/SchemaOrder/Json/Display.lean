import SchemaOrder.Json.Value
import SchemaOrder.Number.Shortest
import SchemaOrder.Text.Quoted

/-!
# Values in messages

This module holds how a message shows a value, be it JSON or any other tree of values:
in full, or cut down to two levels, a few items and a few hundred code points.
-/

namespace SchemaOrder

/-- A tree of values as far as messages are concerned. -/
inductive Shown where
  /-- A word that is always shown in full. -/
  | word (text : Text)
  /-- A text or a number, which may be too long. -/
  | scalar (text : Text)
  | items (parts : List Shown)
  | members (parts : List (Text × Shown))

namespace Shown

mutual

/-- The tree in full. -/
def full : Shown → Text
  | .word text => text
  | .scalar text => text
  | .items parts => "[" ++ Text.join ", " (fullItems parts) ++ "]"
  | .members parts => "\x7b" ++ Text.join ", " (fullMembers parts) ++ "\x7d"

/-- The items of a list in full. -/
def fullItems : List Shown → List Text
  | [] => []
  | item :: rest => full item :: fullItems rest

/-- The members of a mapping in full. -/
def fullMembers : List (Text × Shown) → List Text
  | [] => []
  | (name, value) :: rest => (name.quoted ++ ": " ++ full value) :: fullMembers rest

end

/-- The most code points a shown text has. -/
def longestText : Nat := 240

/-- The most items a shown collection has. -/
def mostItems : Nat := 10

/-- A text whose middle is left out where it is too long. -/
def cutText (text : Text) : Text :=
  if longestText < text.length then
    text.take 118 ++ "..." ++ text.drop (text.length - 119)
  else text

/-- The parts of a collection, the middle ones left out where they are too many. -/
def cutParts (parts : List Text) : List Text :=
  if mostItems < parts.length then
    parts.take 5 ++ [Text.ofString "..."] ++ parts.drop (parts.length - 4)
  else parts

mutual

/-- The tree cut down; `depth` levels of collections are still shown. -/
def cut (depth : Nat) : Shown → Text
  | .word text => text
  | .scalar text => cutText text
  | .items [] => "[]"
  | .items parts =>
    match depth with
    | 0 => "[...]"
    | depth + 1 => "[" ++ Text.join ", " (cutParts (cutItems depth parts)) ++ "]"
  | .members [] => "\x7b\x7d"
  | .members parts =>
    match depth with
    | 0 => "\x7b...\x7d"
    | depth + 1 => "\x7b" ++ Text.join ", " (cutParts (cutMembers depth parts)) ++ "\x7d"

/-- The items of a list cut down. -/
def cutItems (depth : Nat) : List Shown → List Text
  | [] => []
  | item :: rest => cut depth item :: cutItems depth rest

/-- The members of a mapping cut down. -/
def cutMembers (depth : Nat) : List (Text × Shown) → List Text
  | [] => []
  | (name, value) :: rest =>
    (cutText name.quoted ++ ": " ++ cut depth value) :: cutMembers depth rest

end

/-- The tree as messages show it that must stay short. -/
def brief (shown : Shown) : Text :=
  shown.cut 2

end Shown

namespace Json

mutual

/-- A JSON value as a tree to be shown. -/
def toShown : Json → Shown
  | .null => .word "None"
  | .boolean true => .word "True"
  | .boolean false => .word "False"
  | .integer value => .scalar (Text.ofInt value)
  | .float value => .word value.shortestText
  | .text value => .scalar value.quoted
  | .array items => .items (itemsToShown items)
  | .object members => .members (membersToShown members)

/-- The items of an array as trees to be shown. -/
def itemsToShown : List Json → List Shown
  | [] => []
  | item :: rest => toShown item :: itemsToShown rest

/-- The members of an object as trees to be shown. -/
def membersToShown : List (Text × Json) → List (Text × Shown)
  | [] => []
  | (name, value) :: rest => (name, toShown value) :: membersToShown rest

end

/-- A value in full. -/
def display (value : Json) : Text :=
  value.toShown.full

/-- A value cut down. -/
def inspect (value : Json) : Text :=
  value.toShown.brief

end Json

end SchemaOrder
