import SchemaOrder.Failure
import SchemaOrder.Json.Display

/-!
# Access to JSON values

This module holds how a reader asks a JSON value for its parts without having looked at
its kind before, and what goes wrong when the value is of another kind than the reader
takes for granted.
-/

namespace SchemaOrder.Json

/-- Why a value does not have what it was asked for. -/
inductive AccessFault where
  /-- A value without members was asked whether it has a member. -/
  | noMembers (kind : Text)
  /-- An object does not have a member that it has to have. -/
  | missingMember (name : Text)
  /-- A list or a text was asked for a member. -/
  | notIndexed (value : Json)
  /-- A value of a kind that is no collection was gone through. -/
  | notIterable (kind : Text)
  /-- A list or an object was used as a name. -/
  | notHashable (kind : Text)
  /-- A value of a kind that is no text was read as one. -/
  | notReadable (value : Json)
deriving Repr

namespace AccessFault

/-- The words for a value that was asked for a member that values of its kind do not
have. -/
def notIndexedMessage : Json → Text
  | .text _ => "string indices must be integers, not 'str'"
  | .array _ => "list indices must be integers or slices, not str"
  | other => "'" ++ other.kindName ++ "' object is not subscriptable"

/-- The words for a value that was read as a text. -/
def notReadableMessage : Json → Text
  | .array [] => "expected string or bytes-like object, got 'list'"
  | .object [] => "expected string or bytes-like object, got 'dict'"
  | .array (first :: _) =>
    "'in <string>' requires string as left operand, not " ++ first.kindName
  | .object _ => "0"
  | other => "object of type '" ++ other.kindName ++ "' has no len()"

/-- The words for a fault. -/
def message : AccessFault → Text
  | .noMembers kind => "'" ++ kind ++ "' object has no attribute 'get'"
  | .missingMember name => name.quoted
  | .notIndexed value => notIndexedMessage value
  | .notIterable kind => "'" ++ kind ++ "' object is not iterable"
  | .notHashable kind => "unhashable type: '" ++ kind ++ "'"
  | .notReadable value => notReadableMessage value

/-- The kind of failure that a fault is. -/
def kind : AccessFault → FailureKind
  | .noMembers _ => .missingAttribute
  | .missingMember _ => .missingMember
  | .notReadable (.object (_ :: _)) => .missingMember
  | _ => .mismatch

end AccessFault

/-- The member with a name, which has to be there. -/
def member (name : Text) (value : Json) : Except AccessFault Json :=
  match value with
  | .object _ =>
    match value.get? name with
    | some found => .ok found
    | none => .error (.missingMember name)
  | other => .error (.notIndexed other)

/-- The member with a name, or null. -/
def lookup (name : Text) (value : Json) : Except AccessFault Json :=
  match value with
  | .object _ => .ok ((value.get? name).getD .null)
  | other => .error (.noMembers other.kindName)

/-- What a value yields when it is gone through: the items of a list, the code points of
a text, the names of an object. -/
def elements (value : Json) : Except AccessFault (List Json) :=
  match value with
  | .array items => .ok items
  | .text content => .ok (content.map fun codePoint => .text [codePoint])
  | .object members => .ok (members.map fun member => .text member.1)
  | other => .error (.notIterable other.kindName)

/-- A value that is used as a name, which lists and objects cannot be. -/
def asKey (value : Json) : Except AccessFault Json :=
  match value with
  | .array _ | .object _ => .error (.notHashable value.kindName)
  | other => .ok other

/-- Whether null stands where something else may stand. -/
def isNull : Json → Bool
  | .null => true
  | _ => false

mutual

/-- How many levels of collections a value has. -/
def depth : Json → Nat
  | .array items => itemsDepth items + 1
  | .object members => membersDepth members + 1
  | _ => 0

/-- The greatest depth among items. -/
def itemsDepth : List Json → Nat
  | [] => 0
  | item :: rest => max (depth item) (itemsDepth rest)

/-- The greatest depth among members. -/
def membersDepth : List (Text × Json) → Nat
  | [] => 0
  | (_, value) :: rest => max (depth value) (membersDepth rest)

end

/-- A value as it stands inside a sentence: a text is not quoted there. -/
def plain : Json → Text
  | .text content => content
  | other => other.display

end SchemaOrder.Json
