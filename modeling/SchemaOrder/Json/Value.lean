import SchemaOrder.Named
import SchemaOrder.Number.Binary64
import SchemaOrder.Text.Utf8

/-!
# JSON values

This module holds the values of JSON. Integers are unbounded and apart from
floating-point numbers, texts may hold surrogates, and the members of an object
keep their order. Readers and writers have modules of their own.
-/

namespace SchemaOrder

/-- A value of JSON. -/
inductive Json where
  | null
  | boolean (value : Bool)
  | integer (value : Int)
  | float (value : Binary64)
  | text (value : Text)
  | array (items : List Json)
  | object (members : List (Text × Json))
deriving Repr, Inhabited

namespace Json

/-- The object that a list of members makes when they are set one after the other. -/
def ofMembers (members : List (Text × Json)) : Json :=
  .object (Named.ofList Prod.fst members)

/-- The member of an object with a name; nothing has members but objects. -/
def get? (name : Text) : Json → Option Json
  | .object members => (Named.find? Prod.fst name members).map (·.2)
  | _ => none

/-- The text of a list of texts or a single text as JSON. -/
def ofTexts (texts : List Text) : Json :=
  .array (texts.map .text)

/-- A text, or null where there is none. -/
def ofText? (text : Option Text) : Json :=
  match text with
  | some text => .text text
  | none => .null

/-- A natural number as JSON. -/
def ofNat (number : Nat) : Json :=
  .integer (number : Int)

/-- Whether the value is an object. -/
def isObject : Json → Bool
  | .object _ => true
  | _ => false

/-- Whether the value counts as false where a condition is expected: null, false, a
zero, and everything empty. -/
def isFalsy : Json → Bool
  | .null => true
  | .boolean value => !value
  | .integer value => value = 0
  | .float value => value.sameValue (.finite false 0 Binary64.leastExponent)
  | .text value => value.isEmpty
  | .array items => items.isEmpty
  | .object members => members.isEmpty

/-- The word for the kind of a value in messages. -/
def kindName : Json → Text
  | .null => "NoneType"
  | .boolean _ => "bool"
  | .integer _ => "int"
  | .float _ => "float"
  | .text _ => "str"
  | .array _ => "list"
  | .object _ => "dict"

end Json

end SchemaOrder
