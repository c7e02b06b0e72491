import SchemaOrder.Json.Display

/-!
# Values of input types

This module holds the values that arguments and fields of input objects default to,
after they were coerced to their type. A value of an enum is the text of its name.
-/

namespace SchemaOrder

/-- A coerced value. -/
inductive Value where
  | null
  | boolean (value : Bool)
  | integer (value : Int)
  | float (value : Binary64)
  | text (value : Text)
  | list (items : List Value)
  | object (fields : List (Text × Value))
  /-- What stands inside a value of a scalar type for a variable without a value. -/
  | unbound
deriving Repr, Inhabited

namespace Value

mutual

/-- A value as a tree to be shown. -/
def toShown : Value → Shown
  | .null => .word "None"
  | .boolean true => .word "True"
  | .boolean false => .word "False"
  | .integer value => .scalar (Text.ofInt value)
  | .float value => .word value.shortestText
  | .text value => .scalar value.quoted
  | .list items => .items (itemsToShown items)
  | .object fields => .members (fieldsToShown fields)
  | .unbound => .word "Undefined"

/-- The items of a list as trees to be shown. -/
def itemsToShown : List Value → List Shown
  | [] => []
  | item :: rest => toShown item :: itemsToShown rest

/-- The fields of an object as trees to be shown. -/
def fieldsToShown : List (Text × Value) → List (Text × Shown)
  | [] => []
  | (name, value) :: rest => (name, toShown value) :: fieldsToShown rest

end

/-- A value as messages show it. -/
def inspect (value : Value) : Text :=
  value.toShown.brief

end Value

end SchemaOrder
