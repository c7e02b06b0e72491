import SchemaOrder.Text.Basic

/-!
# References to types

This module holds how a field, an argument or a value refers to a type: by its name,
with lists and refusals of null around it. It also holds the six kinds a type is of.
-/

namespace SchemaOrder

/-- A reference to a type by name, with the lists and the refusals of null around it. -/
inductive TypeReference where
  | named (name : Text)
  | list (inner : TypeReference)
  | nonNull (inner : TypeReference)
deriving DecidableEq, Repr, Inhabited

namespace TypeReference

/-- The name inside a reference. -/
def base : TypeReference → Text
  | .named name => name
  | .list inner => inner.base
  | .nonNull inner => inner.base

/-- The reference as it is written. -/
def text : TypeReference → Text
  | .named name => name
  | .list inner => "[" ++ inner.text ++ "]"
  | .nonNull inner => inner.text ++ "!"

/-- Whether null is refused. -/
def isNonNull : TypeReference → Bool
  | .nonNull _ => true
  | _ => false

/-- The reference without the refusal of null around it. -/
def nullable : TypeReference → TypeReference
  | .nonNull inner => inner
  | other => other

end TypeReference

/-- The six kinds of types. -/
inductive TypeKind where
  | scalar
  | object
  | interface
  | union
  | enum
  | inputObject
deriving DecidableEq, Repr

namespace TypeKind

/-- Whether values of a kind of type are given to fields and directives. -/
def isInput : TypeKind → Bool
  | .scalar | .enum | .inputObject => true
  | _ => false

/-- Whether values of a kind of type are what fields give. -/
def isOutput : TypeKind → Bool
  | .inputObject => false
  | _ => true

/-- Whether values of a kind of type have no parts that the schema knows. -/
def isLeaf : TypeKind → Bool
  | .scalar | .enum => true
  | _ => false

/-- The word for a kind of type in introspection. -/
def word : TypeKind → Text
  | .scalar => "SCALAR"
  | .object => "OBJECT"
  | .interface => "INTERFACE"
  | .union => "UNION"
  | .enum => "ENUM"
  | .inputObject => "INPUT_OBJECT"

end TypeKind

end SchemaOrder
