import SchemaOrder.Order.NameOrder
import SchemaOrder.Schema.Basic

/-!
# Checking the order of schemas

This module holds the test whether a schema is sorted already. Standard scalars,
standard directives and introspection types are not looked at: a document does not say
where they stand.
-/

namespace SchemaOrder.Schema

/-- A collection of names that should be in order, and what messages call it. -/
structure OrderedCollection where
  label : Text
  names : List Text
deriving Repr

/-- The collections of a type. -/
def typeCollections (type : NamedType) : List OrderedCollection :=
  match type.body with
  | .object interfaces fields | .interface interfaces fields =>
    ⟨type.name ++ " interfaces", interfaces⟩ ::
      ⟨type.name ++ " fields", fields.map Field.name⟩ ::
        fields.map fun field =>
          ⟨type.name ++ "." ++ field.name ++ " arguments",
            field.arguments.map InputValue.name⟩
  | .union members => [⟨type.name ++ " members", members⟩]
  | .enum values => [⟨type.name ++ " values", values.map EnumValue.name⟩]
  | .inputObject fields _ => [⟨type.name ++ " fields", fields.map InputValue.name⟩]
  | .scalar _ => []

/-- The collections of a directive. -/
def directiveCollections (directive : Directive) : List OrderedCollection :=
  [⟨"@" ++ directive.name ++ " locations", directive.locations⟩,
    ⟨"@" ++ directive.name ++ " arguments", directive.arguments.map InputValue.name⟩]

/-- The entries of the index that are no standard types. -/
def userEntries (schema : Schema) : List Entry :=
  schema.index.filter fun entry => !isStandardType entry.name

/-- The directives that are no standard ones. -/
def userDirectives (schema : Schema) : List Directive :=
  schema.directives.filter fun directive => !isStandardDirective directive.name

/-- The collections of a schema, in the order in which they are looked at. -/
def collections (schema : Schema) : List OrderedCollection :=
  ⟨"types", schema.userEntries.map Entry.name⟩ ::
    ⟨"directives", schema.userDirectives.map Directive.name⟩ ::
      (schema.userDirectives.flatMap directiveCollections ++
        (schema.userEntries.filterMap Entry.type?).flatMap typeCollections)

/-- The first collection that is not in order. -/
def firstUnordered? (order : NameOrder) (schema : Schema) : Option OrderedCollection :=
  schema.collections.find? fun collection => !order.isOrdered collection.names

/-- Whether every collection of a schema is in order. -/
def isSorted (order : NameOrder) (schema : Schema) : Bool :=
  schema.collections.all fun collection => order.isOrdered collection.names

end SchemaOrder.Schema
