import SchemaOrder.Schema.Value
import SchemaOrder.TypeReference

/-!
# Schemas

This module holds schemas: their types, their directives, and the types that serve the
three operations. Every collection is a list, since its order is what the library is
about. Types refer to each other by name; a schema keeps the definition of every type
that can be reached, and apart from these the index of types that it shows. The two
differ only where somebody has tampered with the index.
-/

namespace SchemaOrder

namespace Schema

/-- An argument, or a field of an input object. -/
structure InputValue where
  name : Text
  type : TypeReference
  default? : Option Value
  description : Option Text
  /-- Why it should not be used any more. -/
  deprecation : Option Text
deriving Repr

/-- A field of an object or an interface. -/
structure Field where
  name : Text
  type : TypeReference
  arguments : List InputValue
  description : Option Text
  deprecation : Option Text
deriving Repr

/-- A value of an enum. -/
structure EnumValue where
  name : Text
  description : Option Text
  deprecation : Option Text
deriving Repr

/-- What makes a type, by kind. -/
inductive Body where
  | scalar (specifiedBy : Option Text)
  | object (interfaces : List Text) (fields : List Field)
  | interface (interfaces : List Text) (fields : List Field)
  | union (members : List Text)
  | enum (values : List EnumValue)
  /-- What `oneOf` says is whether exactly one field is given: a document says it with true
  or false, an introspection result with anything. -/
  | inputObject (fields : List InputValue) (oneOf : Json)
deriving Repr

/-- The kind of type that a body makes. -/
def Body.kind : Body → TypeKind
  | .scalar _ => .scalar
  | .object .. => .object
  | .interface .. => .interface
  | .union _ => .union
  | .enum _ => .enum
  | .inputObject .. => .inputObject

/-- A type. -/
structure NamedType where
  name : Text
  description : Option Text
  body : Body
deriving Repr

namespace NamedType

/-- The kind of a type. -/
def kind (type : NamedType) : TypeKind :=
  type.body.kind

/-- The interfaces that a type says it implements. -/
def interfaces (type : NamedType) : List Text :=
  match type.body with
  | .object interfaces _ => interfaces
  | .interface interfaces _ => interfaces
  | _ => []

/-- The fields of an object or an interface. -/
def fields (type : NamedType) : List Field :=
  match type.body with
  | .object _ fields => fields
  | .interface _ fields => fields
  | _ => []

end NamedType

/-- A directive. -/
structure Directive where
  name : Text
  description : Option Text
  arguments : List InputValue
  isRepeatable : Bool
  locations : List Text
  deprecation : Option Text
deriving Repr

/-- An entry of the index of types: a type, or a name that is of no kind. -/
inductive Entry where
  | defined (type : NamedType)
  | kindless (name : Text)
deriving Repr

/-- The name of an entry. -/
def Entry.name : Entry → Text
  | .defined type => type.name
  | .kindless name => name

/-- The type of an entry. -/
def Entry.type? : Entry → Option NamedType
  | .defined type => some type
  | .kindless _ => none

end Schema

/-- A schema. -/
structure Schema where
  description : Option Text
  /-- The name of the type that serves queries. -/
  query : Option Text
  /-- The name of the type that serves mutations. -/
  mutation : Option Text
  /-- The name of the type that serves subscriptions. -/
  subscription : Option Text
  directives : List Schema.Directive
  /-- Every type that can be reached, in the order in which they were collected. -/
  types : List Schema.NamedType
  /-- The index of types. -/
  index : List Schema.Entry
  /-- What validation found, if it was done or dispensed with. -/
  validation : Option (List Text)
deriving Repr

namespace Schema

/-- The names of the index, in its order. -/
def typeNames (schema : Schema) : List Text :=
  schema.index.map Entry.name

/-- The type with a name that references lead to. -/
def type? (schema : Schema) (name : Text) : Option NamedType :=
  schema.types.find? fun type => type.name = name

/-- The kind of the type with a name. -/
def kind? (schema : Schema) (name : Text) : Option TypeKind :=
  (schema.type? name).map NamedType.kind

/-- The types of the index, names of no kind left out. -/
def definedTypes (schema : Schema) : List NamedType :=
  schema.index.filterMap Entry.type?

/-- The types that serve operations. -/
def roots (schema : Schema) : List (Option Text) :=
  [schema.query, schema.mutation, schema.subscription]

/-- The objects that say they implement an interface, each as often as it says so. -/
def implementingObjects (schema : Schema) (interfaceName : Text) : List Text :=
  schema.types.flatMap fun type =>
    match type.body with
    | .object interfaces _ =>
      (interfaces.filter fun name => name = interfaceName).map fun _ => type.name
    | _ => []

/-- The interfaces that say they implement an interface. -/
def implementingInterfaces (schema : Schema) (interfaceName : Text) : List Text :=
  schema.types.flatMap fun type =>
    match type.body with
    | .interface interfaces _ =>
      (interfaces.filter fun name => name = interfaceName).map fun _ => type.name
    | _ => []

/-- The scalar types that every schema may use. -/
def standardScalars : List Text :=
  ["String", "Int", "Float", "Boolean", "ID"]

/-- The types by which a schema describes itself. -/
def introspectionTypes : List Text :=
  ["__Schema", "__Directive", "__DirectiveLocation", "__Type", "__Field", "__InputValue",
    "__EnumValue", "__TypeKind"]

/-- The directives that every schema has. -/
def standardDirectives : List Text :=
  ["include", "skip", "deprecated", "specifiedBy", "oneOf"]

/-- Whether a name is that of a standard scalar. -/
def isStandardScalar (name : Text) : Bool :=
  standardScalars.contains name

/-- Whether a name is that of an introspection type. -/
def isIntrospectionType (name : Text) : Bool :=
  introspectionTypes.contains name

/-- Whether a name is that of a type that no document defines. -/
def isStandardType (name : Text) : Bool :=
  isStandardScalar name || isIntrospectionType name

/-- Whether a name is that of a standard directive. -/
def isStandardDirective (name : Text) : Bool :=
  standardDirectives.contains name

/-- The reason of a deprecation that gives none. -/
def defaultDeprecation : Text :=
  "No longer supported"

end Schema

end SchemaOrder
