import SchemaOrder.TypeReference

/-!
# Documents

This module holds what a document of the schema language says once it is read:
definitions and extensions of types, directives and the schema itself, and the
operations and fragments that may stand beside them. Names are not resolved. Places
are kept only where a message points at them.
-/

namespace SchemaOrder.Document

/-- A value as a document writes it. -/
inductive Literal where
  | variable (name : Text)
  | integer (digits : Text)
  | float (digits : Text)
  | text (content : Text) (isBlock : Bool)
  | boolean (value : Bool)
  | null
  | enumValue (name : Text)
  | list (items : List Literal)
  | object (fields : List (Text × Literal))
deriving Repr, Inhabited

/-- An argument that is given a value. -/
structure Argument where
  name : Text
  value : Literal
  /-- Where the value begins. -/
  valuePosition : Nat
deriving Repr

/-- A directive applied to something. -/
structure Directive where
  name : Text
  arguments : List Argument
  /-- Where the directive begins. -/
  position : Nat
deriving Repr

/-- The definition of an argument or of a field of an input object. -/
structure InputValueDefinition where
  description : Option Text
  name : Text
  type : TypeReference
  default? : Option Literal
  directives : List Directive
deriving Repr

/-- The definition of a field. -/
structure FieldDefinition where
  description : Option Text
  name : Text
  arguments : List InputValueDefinition
  type : TypeReference
  directives : List Directive
deriving Repr

/-- The definition of a value of an enum. -/
structure EnumValueDefinition where
  description : Option Text
  name : Text
  directives : List Directive
deriving Repr

/-- What the definition of a type says, by kind. -/
inductive TypeBody where
  | scalar
  | object (interfaces : List Text) (fields : List FieldDefinition)
  | interface (interfaces : List Text) (fields : List FieldDefinition)
  | union (members : List Text)
  | enum (values : List EnumValueDefinition)
  | inputObject (fields : List InputValueDefinition)
deriving Repr

/-- The kind of type that a body defines. -/
def TypeBody.kind : TypeBody → TypeKind
  | .scalar => .scalar
  | .object .. => .object
  | .interface .. => .interface
  | .union .. => .union
  | .enum .. => .enum
  | .inputObject .. => .inputObject

/-- The definition of a type, or an extension of one. -/
structure TypeDefinition where
  description : Option Text
  name : Text
  directives : List Directive
  body : TypeBody
deriving Repr

/-- The definition of a directive. -/
structure DirectiveDefinition where
  description : Option Text
  name : Text
  arguments : List InputValueDefinition
  isRepeatable : Bool
  locations : List Text
deriving Repr

/-- The three operations. -/
inductive Operation where
  | query
  | mutation
  | subscription
deriving DecidableEq, Repr

/-- The word for an operation. -/
def Operation.word : Operation → Text
  | .query => "query"
  | .mutation => "mutation"
  | .subscription => "subscription"

/-- The definition of the schema, or an extension of it. -/
structure SchemaDefinition where
  description : Option Text
  directives : List Directive
  operations : List (Operation × Text)
deriving Repr

/-- A variable of an operation. -/
structure VariableDefinition where
  name : Text
  type : TypeReference
  default? : Option Literal
  directives : List Directive
deriving Repr

/-- What an operation selects. -/
inductive Selection where
  | field (label : Option Text) (name : Text) (arguments : List Argument)
      (directives : List Directive) (selections : List Selection)
  | spread (name : Text) (directives : List Directive)
  | inline (condition : Option Text) (directives : List Directive)
      (selections : List Selection)
deriving Repr

/-- A part of a document. -/
inductive Definition where
  | schema (definition : SchemaDefinition)
  | schemaExtension (definition : SchemaDefinition)
  | type (definition : TypeDefinition)
  | typeExtension (definition : TypeDefinition)
  | directive (definition : DirectiveDefinition)
  | operation (operation : Operation) (definitions : List VariableDefinition)
      (directives : List Directive) (selections : List Selection)
  | fragment (name condition : Text) (directives : List Directive)
      (selections : List Selection)
deriving Repr

/-- The places a directive may be applied to, in the order the language lists them. -/
def directiveLocations : List Text :=
  ["QUERY", "MUTATION", "SUBSCRIPTION", "FIELD", "FRAGMENT_DEFINITION", "FRAGMENT_SPREAD",
    "INLINE_FRAGMENT", "VARIABLE_DEFINITION", "SCHEMA", "SCALAR", "OBJECT",
    "FIELD_DEFINITION", "ARGUMENT_DEFINITION", "INTERFACE", "UNION", "ENUM", "ENUM_VALUE",
    "INPUT_OBJECT", "INPUT_FIELD_DEFINITION", "DIRECTIVE_DEFINITION"]

end SchemaOrder.Document
