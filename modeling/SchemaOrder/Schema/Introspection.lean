import SchemaOrder.Json.Writer
import SchemaOrder.Schema.Default
import SchemaOrder.Schema.Rules

/-!
# Describing schemas

This module holds the introspection result of a schema: its types, fields, arguments and
directives as a JSON value, in the order the schema has them in. Only a schema that keeps
the rules is described, and the description fails where a default cannot be written.
References are described down to a certain depth.
-/

namespace SchemaOrder.Schema

/-- Why a schema cannot be described. -/
inductive DescriptionFault where
  /-- The schema breaks rules. -/
  | invalid (messages : List Text)
  /-- There is no type to ask for the description. -/
  | noQuery
  /-- An entry of the index that is of no kind. -/
  | kindless (name : Text)
  /-- What is said about an input object counts as neither true nor false. -/
  | notFlag (value : Json)
  | default (fault : DefaultFault)
deriving Repr

namespace DescriptionFault

/-- The words for a fault. -/
def message : DescriptionFault → Text
  | .invalid messages => Text.join "\n\n" messages
  | .noQuery => "Schema is not configured to execute query operation."
  | .kindless name => "Unexpected type: " ++ name ++ "."
  | .notFlag value => "Boolean cannot represent a non boolean value: " ++ value.inspect
  | .default fault => fault.message

/-- Where in a request for an introspection result the faulty part is asked for, as an
excerpt of the request. -/
def excerpt : DescriptionFault → Text
  | .default _ =>
    "GraphQL request:64:3\n63 |   type \x7b ...TypeRef \x7d\n64 |   defaultValue\n" ++
      "   |   ^\n65 |   isDeprecated"
  | .notFlag _ =>
    "GraphQL request:30:3\n29 |   specifiedByURL\n30 |   isOneOf\n   |   ^\n" ++
      "31 |   fields(includeDeprecated: true) \x7b"
  | _ => []

/-- The kind of failure that a fault is. -/
def kind : DescriptionFault → FailureKind
  | .invalid _ => .mismatch
  | _ => .language

end DescriptionFault

/-- The schema after validation: what validation says about it is kept. -/
def validated (schema : Schema) : Schema :=
  { schema with validation := some schema.validationMessages }

namespace Describe

/-- An object whose members are named in the library itself. -/
def object (members : List (String × Json)) : Json :=
  .object (members.map fun member => (Text.ofString member.1, member.2))

/-- The members that say whether something is deprecated. -/
def deprecation (reason : Option Text) : List (String × Json) :=
  [("isDeprecated", .boolean reason.isSome), ("deprecationReason", Json.ofText? reason)]

/-- The word for the kind of the type with a name. -/
def kindOf (schema : Schema) (name : Text) : Json :=
  Json.ofText? ((schema.kind? name).map TypeKind.word)

/-- How many levels a reference is described down to, below the outermost one. -/
def innerLevels : Nat := 9

/-- The name of the level of a reference, if it has one, and its kind. -/
def level (schema : Schema) : TypeReference → Json × Json
  | .named name => (.text name, kindOf schema name)
  | .list _ => (.null, .text "LIST")
  | .nonNull _ => (.null, .text "NON_NULL")

/-- What stands inside the outermost level of a reference. The innermost level that is
described does not say whether there are more. -/
def inside (schema : Schema) (remaining : Nat) (type : TypeReference) : Json :=
  match remaining, type with
  | _, .named _ => .null
  | 0, _ => .null
  | remaining + 1, .list inner | remaining + 1, .nonNull inner =>
    let (name, kind) := level schema inner
    object ([("name", name), ("kind", kind)] ++
      if remaining = 0 then [] else [("ofType", inside schema remaining inner)])

/-- A reference. -/
def reference (schema : Schema) (type : TypeReference) : Json :=
  let (name, kind) := level schema type
  object [("kind", kind), ("name", name), ("ofType", inside schema innerLevels type)]

/-- An argument or an input field. -/
def inputValue (schema : Schema) (input : InputValue) : Except DescriptionFault Json := do
  let written ← (schema.defaultText input).mapError .default
  pure (object ([("name", .text input.name), ("description", Json.ofText? input.description),
    ("type", reference schema input.type), ("defaultValue", Json.ofText? written)] ++
    deprecation input.deprecation))

/-- Arguments or input fields. -/
def inputValues (schema : Schema) (inputs : List InputValue) : Except DescriptionFault Json := do
  return .array (← inputs.mapM (inputValue schema))

/-- A field. -/
def field (schema : Schema) (field : Field) : Except DescriptionFault Json := do
  let arguments ← inputValues schema field.arguments
  pure (object ([("name", .text field.name), ("description", Json.ofText? field.description),
    ("args", arguments), ("type", reference schema field.type)] ++
    deprecation field.deprecation))

/-- Fields. -/
def fields (schema : Schema) (fields : List Field) : Except DescriptionFault Json := do
  return .array (← fields.mapM (field schema))

/-- A value of an enum. -/
def enumValue (value : EnumValue) : Json :=
  object ([("name", .text value.name), ("description", Json.ofText? value.description)] ++
    deprecation value.deprecation)

/-- References by name. -/
def names (schema : Schema) (names : List Text) : Json :=
  .array (names.map fun name => reference schema (.named name))

/-- The types a value of a type is one of, where these are several. -/
def possibleTypes (schema : Schema) (type : NamedType) : Json :=
  match type.body with
  | .union members => names schema members
  | .interface .. => names schema (schema.implementingObjects type.name)
  | _ => .null

/-- Whether exactly one field of an input object is given, as far as it is said. A number
says it by being zero or not. -/
def oneOf (type : NamedType) : Except DescriptionFault Json :=
  match type.body with
  | .inputObject _ .null => .ok .null
  | .inputObject _ (.boolean value) => .ok (.boolean value)
  | .inputObject _ (.integer number) => .ok (.boolean (number ≠ 0))
  | .inputObject _ (.float number) =>
    if number.isFinite then .ok (.boolean !(Json.float number).isFalsy)
    else .error (.notFlag (.float number))
  | .inputObject _ other => .error (.notFlag other)
  | _ => .ok .null

/-- A type. What is said by its `oneOf` is known already. -/
def namedType (schema : Schema) (type : NamedType) (isOneOf : Json) :
    Except DescriptionFault Json := do
  let specifiedBy := match type.body with
    | .scalar address => Json.ofText? address
    | _ => .null
  let fields ←
    match type.body with
    | .object _ described | .interface _ described => fields schema described
    | _ => pure .null
  let inputFields ←
    match type.body with
    | .inputObject fields _ => inputValues schema fields
    | _ => pure .null
  let interfaces := match type.body with
    | .object interfaces _ | .interface interfaces _ => names schema interfaces
    | _ => .null
  let enumValues := match type.body with
    | .enum values => .array (values.map enumValue)
    | _ => .null
  pure (object [("kind", .text type.kind.word), ("name", .text type.name),
    ("description", Json.ofText? type.description), ("specifiedByURL", specifiedBy),
    ("isOneOf", isOneOf), ("fields", fields), ("inputFields", inputFields),
    ("interfaces", interfaces), ("enumValues", enumValues),
    ("possibleTypes", possibleTypes schema type)])

/-- The type of an entry of the index. -/
def typeOf : Entry → Except DescriptionFault NamedType
  | .defined type => .ok type
  | .kindless name => .error (.kindless name)

/-- A directive. -/
def directive (schema : Schema) (directive : Directive) : Except DescriptionFault Json := do
  let arguments ← inputValues schema directive.arguments
  pure (object ([("name", .text directive.name),
    ("description", Json.ofText? directive.description),
    ("isRepeatable", .boolean directive.isRepeatable)] ++ deprecation directive.deprecation ++
    [("locations", Json.ofTexts directive.locations), ("args", arguments)]))

/-- The type that serves an operation. -/
def root (schema : Schema) : Option Text → Json
  | none => .null
  | some name => object [("name", .text name), ("kind", kindOf schema name)]

end Describe

/-- The introspection result of a schema. Of several faults, an entry of no kind is
reported first, then what is neither true nor false, then a default of a directive, then
a default within a type. -/
def introspection (schema : Schema) : Except DescriptionFault Json := do
  let messages := schema.validationMessages
  if !messages.isEmpty then .error (.invalid messages)
  else if schema.query.isNone then .error .noQuery
  else
    let indexed ← schema.index.mapM Describe.typeOf
    let flags ← indexed.mapM Describe.oneOf
    let directives ← schema.directives.mapM (Describe.directive schema)
    let types ← (indexed.zip flags).mapM fun (type, isOneOf) =>
      Describe.namedType schema type isOneOf
    pure (Describe.object [("__schema", Describe.object [
      ("description", Json.ofText? schema.description),
      ("queryType", Describe.root schema schema.query),
      ("mutationType", Describe.root schema schema.mutation),
      ("subscriptionType", Describe.root schema schema.subscription),
      ("types", .array types),
      ("directives", .array directives)])])

/-- The text of the introspection result of a schema. -/
def toIntrospection (schema : Schema) : Except DescriptionFault Text := do
  return (← schema.introspection).document ++ Text.ofString "\n"

end SchemaOrder.Schema
