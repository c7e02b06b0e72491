import SchemaOrder.Document.Parser
import SchemaOrder.Json.Equality
import SchemaOrder.Schema.Coercion
import SchemaOrder.Schema.Draft
import SchemaOrder.Schema.Fault

/-!
# Schemas of introspection results

This module holds the schema that a description in JSON describes, as introspection
gives it. The description may come from anywhere, so that nothing about its shape is
certain; what it takes for granted and does not find is a fault like any other. Types
whose names are those of standard types are the standard types.
-/

namespace SchemaOrder.Schema

/-- The types of a description, by name. -/
structure DescribedType where
  name : Text
  kind : TypeKind
  description : Json
deriving Repr

namespace Described

/-- A fault of a description. -/
def fault {α : Type} (fault : IntrospectionFault) : Except SchemaFault α :=
  .error (.introspection fault)

/-- What was asked of a value. -/
def ask {α : Type} (result : Except Json.AccessFault α) : Except SchemaFault α :=
  result.mapError fun fault => .introspection (.access fault)

/-- A name, which has to be a text that names may be. -/
def checkedName (value : Json) : Except SchemaFault Text :=
  match value with
  | .text name => do
    checkName name
    pure name
  | .null => fault .nullName
  | _ => fault .nameNotText

/-- A text or null; `subject` is what messages call it. -/
def optionalText (subject : Text) (value : Json) : Except SchemaFault (Option Text) :=
  match value with
  | .null => .ok none
  | .text content => .ok (some content)
  | _ => fault (.notText subject)

/-- The kinds of types by their words. -/
def kindOfWord? (word : Json) : Option TypeKind :=
  match word with
  | .text content =>
    [TypeKind.scalar, .object, .interface, .union, .enum, .inputObject].find? fun kind =>
      kind.word = content
  | _ => none

/-- The type that a name leads to: one that is described, which is the standard one if it
is named like one. -/
def kindOf (types : List DescribedType) (name : Json) : Except SchemaFault TypeKind := do
  let key ← ask name.asKey
  match key with
  | .text content =>
    match Named.find? DescribedType.name content types with
    | some type => pure ((Standard.type? content).elim type.kind NamedType.kind)
    | none => fault (.unlisted content)
  | other => fault (.unlisted other.plain)

/-- Whether a value is a given word. -/
def isWord (word : Text) : Json → Bool
  | .text content => content = word
  | _ => false

/-- The reference that a description of a reference makes; every level of it is one step
deeper into the description. -/
def referenceWith (fuel : Nat) (types : List DescribedType) (value : Json) :
    Except SchemaFault TypeReference :=
  match fuel with
  | 0 => fault .tooDeep
  | fuel + 1 => do
    let kind ← ask (value.lookup "kind")
    if isWord "LIST" kind then
      let inner ← ask (value.lookup "ofType")
      if inner.isFalsy then fault .tooDeep
      else return .list (← referenceWith fuel types inner)
    else if isWord "NON_NULL" kind then
      let inner ← ask (value.lookup "ofType")
      if inner.isFalsy then fault .tooDeep
      else
        let reference ← referenceWith fuel types inner
        if reference.isNonNull then fault (.notOfKind reference.text "nullable")
        else pure (.nonNull reference)
    else
      let name ← ask (value.lookup "name")
      if name.isFalsy then fault (.noReference value.inspect)
      else
        let _ ← kindOf types name
        pure (.named name.plain)

/-- The reference that a description of a reference makes. -/
def reference (types : List DescribedType) (value : Json) : Except SchemaFault TypeReference :=
  referenceWith (value.depth + 1) types value

/-- The kind of the type inside a reference. -/
def baseKind (types : List DescribedType) (reference : TypeReference) :
    Except SchemaFault TypeKind :=
  kindOf types (.text reference.base)

/-- A reference to a type of a given kind, without lists and refusals of null. -/
def referenceOfKind (types : List DescribedType) (kind : TypeKind) (words : Text)
    (value : Json) : Except SchemaFault Text := do
  let reference ← reference types value
  match reference with
  | .named name =>
    if (← kindOf types (.text name)) = kind then pure name
    else fault (.notOfKind reference.text words)
  | _ => fault (.notOfKind reference.text words)

/-- The names and the parts that go with them, put together by name. A name has to be
something that things can be found by. -/
def keyed {α : Type} (parts : List (Json × α)) : List (Json × α) :=
  parts.foldl (fun known part =>
    if known.any fun other => other.1.agrees part.1 then
      known.map fun other => if other.1.agrees part.1 then (other.1, part.2) else other
    else known ++ [part]) []

/-- The parts of a description, each made under its name. -/
def collect {α : Type} (make : Json → Except SchemaFault α) (value : Json) :
    Except SchemaFault (List (Json × α)) := do
  let parts ← (← ask value.elements).mapM fun part => do
    let name ← ask (part.member "name")
    let made ← make part
    return (← ask name.asKey, made)
  pure (keyed parts)

/-- Parts whose names are texts that names may be. -/
def checkedParts {α : Type} (parts : List (Json × α)) : Except SchemaFault (List (Text × α)) :=
  parts.mapM fun (name, part) => do return (← checkedName name, part)

/-- Whether all names are texts. -/
def haveTextNames {α : Type} (parts : List (Json × α)) : Bool :=
  parts.all fun part =>
    match part.1 with
    | .text _ => true
    | _ => false

/-- The default that is described, coerced to its type. -/
def defaultValue (inputs : InputTypes SchemaFault) (type : TypeReference) (value : Json) :
    Except SchemaFault (Option Value) :=
  match value with
  | .null => .ok none
  | .text source =>
    match Document.parseLiteral source with
    | .error fault => .error (.malformedDefault fault source)
    | .ok literal => Coercion.coerce inputs literal type
  | other => fault (.access (.notReadable other))

/-- An argument or an input field that is described. `place` and `subject` are what
messages call it. The name is set by whoever collects it. -/
def inputValue (inputs : InputTypes SchemaFault) (types : List DescribedType)
    (place subject : Text) (value : Json) : Except SchemaFault InputValue := do
  let type ← reference types (← ask (value.member "type"))
  if !(← baseKind types type).isInput then fault (.misplaced "input" place type.text)
  else
    let default? ← defaultValue inputs type (← ask (value.lookup "defaultValue"))
    let description ← ask (value.lookup "description")
    let deprecation ← ask (value.lookup "deprecationReason")
    let description ← optionalText (subject ++ " description") description
    let deprecation ← optionalText (subject ++ " deprecation reason") deprecation
    pure ⟨[], type, default?, description, deprecation⟩

/-- A fault in a part of a type. -/
def within {α : Type} (owner : Text) (part : TypePart) (result : Except SchemaFault α) :
    Except SchemaFault α :=
  result.mapError (.unresolved owner part)

/-- Input fields, each with its name. -/
def named (parts : List (Text × InputValue)) : List InputValue :=
  parts.map fun (name, part) => { part with name }

/-- The fields of an input object that are described. -/
def inputFields (inputs : InputTypes SchemaFault) (types : List DescribedType)
    (type : DescribedType) : Except SchemaFault (List InputValue) := do
  let parts ← within type.name .fields do
    let fields ← ask (type.description.member "inputFields")
    collect (inputValue inputs types "input fields" "Input field") fields
  if !haveTextNames parts then fault (.fieldNames type.name)
  else return named (← checkedParts parts)

/-- The names of enum values that are described. -/
def enumNames (value : Json) : List Text :=
  match value.get? "enumValues" with
  | some (.array items) => items.filterMap fun item =>
    match item.get? "name" with
    | some (.text name) => some name
    | _ => none
  | _ => []

/-- What is said about whether an input object takes exactly one of its fields. -/
def oneOf (value : Json) : Json :=
  (value.get? "isOneOf").getD (.boolean false)

/-- What coercion has to know of a type. The fuel bounds how far the defaults of input
fields lead from one input object to another. -/
def inputShape (fuel : Nat) (types : List DescribedType) (name : Text) :
    InputShape SchemaFault :=
  match Standard.type? name with
  | some type =>
    match type.body with
    | .scalar _ => .scalar
    | .enum values => .enum (values.map EnumValue.name)
    | _ => .output
  | none =>
    match Named.find? DescribedType.name name types with
    | none => .output
    | some type =>
      match type.kind with
      | .scalar => .scalar
      | .enum => .enum (enumNames type.description)
      | .inputObject =>
        let fields : Except SchemaFault (List InputValue) :=
          match fuel with
          | 0 => .error (.endlessDefault name)
          | fuel + 1 => inputFields ⟨inputShape fuel types, .unexpectedInputType⟩ types type
        .inputObject fields !(oneOf type.description).isFalsy
      | _ => .output

/-- What coercion has to know of the types that are described. No chain of defaults that
ends is longer than there are types. -/
def inputTypes (types : List DescribedType) : InputTypes SchemaFault :=
  ⟨inputShape (types.length + 1) types, .unexpectedInputType⟩

/-- The arguments that are described. -/
def arguments (types : List DescribedType) (value : Json) :
    Except SchemaFault (List (Json × InputValue)) :=
  collect (inputValue (inputTypes types) types "arguments" "Argument") value

/-- A field that is described. -/
def field (types : List DescribedType) (value : Json) : Except SchemaFault Field := do
  let type ← reference types (← ask (value.member "type"))
  if !(← baseKind types type).isOutput then fault (.misplaced "output" "fields" type.text)
  else
    let arguments? ← ask (value.lookup "args")
    if arguments?.isNull then fault (.missing "field args" value.inspect)
    else
      let arguments ← arguments types arguments?
      let description ← ask (value.lookup "description")
      let deprecation ← ask (value.lookup "deprecationReason")
      let arguments ← checkedParts arguments
      let description ← optionalText "The description" description
      let deprecation ← optionalText "The deprecation reason" deprecation
      pure ⟨[], type, named arguments, description, deprecation⟩

/-- The fields of an object or an interface that are described. -/
def fields (types : List DescribedType) (type : DescribedType) :
    Except SchemaFault (List Field) := do
  let parts ← within type.name .fields do
    let fields ← ask (type.description.lookup "fields")
    if fields.isNull then fault (.missing "fields" type.description.display)
    else collect (field types) fields
  if !haveTextNames parts then fault (.fieldNames type.name)
  else
    let checked ← checkedParts parts
    pure (checked.map fun (name, field) => { field with name })

/-- The interfaces that a type implements. Interfaces may leave them out. -/
def interfaces (types : List DescribedType) (type : DescribedType) :
    Except SchemaFault (List Text) :=
  within type.name .interfaces do
    let interfaces ← ask (type.description.lookup "interfaces")
    if interfaces.isNull then
      if type.kind = .interface then pure []
      else fault (.missing "interfaces" type.description.inspect)
    else
      (← ask interfaces.elements).mapM (referenceOfKind types .interface "Interface")

/-- The members of a union that is described. -/
def members (types : List DescribedType) (type : DescribedType) :
    Except SchemaFault (List Text) :=
  within type.name .members do
    let members ← ask (type.description.member "possibleTypes")
    (← ask members.elements).mapM (referenceOfKind types .object "Object")

/-- A value of an enum that is described. -/
def enumValue (value : Json) : Except SchemaFault EnumValue := do
  let _ ← ask (value.member "name")
  let description ← ask (value.lookup "description")
  let deprecation ← ask (value.lookup "deprecationReason")
  let description ← optionalText "The description of the enum value" description
  let deprecation ← optionalText "The deprecation reason for the enum value" deprecation
  pure ⟨[], description, deprecation⟩

/-- The values of an enum, each with its name. -/
def namedValues (parts : List (Json × EnumValue)) : Except SchemaFault (List EnumValue) :=
  parts.mapM fun (name, value) => do
    let checked ← checkedName name
    checkEnumValueName checked
    pure { value with name := checked }

/-- The name of a type, which has to be one that no standard type of another kind has. -/
def unreservedName (name : Json) : Except SchemaFault Text := do
  match ← ask name.asKey with
  | .text content =>
    if isStandardType content then .error (.reservedType content)
    else checkedName name
  | other => checkedName other

/-- The name and the description of a type. -/
def heading (name description : Json) : Except SchemaFault (Text × Option Text) := do
  let name ← checkedName name
  return (name, ← optionalText "The description" description)

/-- What a described type is on its own, before it is related to the others. -/
inductive Outline where
  /-- A standard type. -/
  | standard (type : NamedType)
  | scalar (description : Option Text) (specifiedBy : Option Text)
  | enum (description : Option Text) (values : List EnumValue)
  /-- A type whose parts are worked out later. -/
  | other (description : Option Text)

/-- The standard type that a name is of, if it is of one. -/
def standard? (name : Json) : Except SchemaFault (Option NamedType) := do
  match ← ask name.asKey with
  | .text content => pure (Standard.type? content)
  | _ => pure none

/-- The outline of a scalar type. -/
def scalarOutline (name value : Json) : Except SchemaFault (Text × Outline) := do
  match ← standard? name with
  | some type => pure (type.name, .standard type)
  | none =>
    let description ← ask (value.lookup "description")
    let address ← ask (value.lookup "specifiedByURL")
    let (name, description) ← heading name description
    match address with
    | .null => pure (name, .scalar description none)
    | .text content => pure (name, .scalar description (some content))
    | other => fault (.addressNotText name other.inspect)

/-- The outline of an enum. -/
def enumOutline (name value : Json) : Except SchemaFault (Text × Outline) := do
  let values ← ask (value.lookup "enumValues")
  if values.isNull then fault (.missing "enumValues" value.inspect)
  else
    match ← standard? name with
    | some type => pure (type.name, .standard type)
    | none =>
      let description ← ask (value.lookup "description")
      let parts ← collect enumValue values
      let (name, description) ← heading name description
      pure (name, .enum description (← namedValues parts))

/-- The outline of an object. -/
def objectOutline (name value : Json) : Except SchemaFault (Text × Outline) := do
  match ← standard? name with
  | some type => pure (type.name, .standard type)
  | none =>
    let (name, description) ← heading name (← ask (value.lookup "description"))
    pure (name, .other description)

/-- The outline of an interface, a union or an input object. These have a part that must
not be missing, but for interfaces. -/
def compositeOutline (part : Option Text) (name value : Json) :
    Except SchemaFault (Text × Outline) := do
  match part with
  | some part =>
    let found ← ask (value.lookup part)
    if found.isNull then fault (.missing part value.inspect) else pure ()
  | none => pure ()
  let description ← ask (value.lookup "description")
  let unreserved ← unreservedName name
  pure (unreserved, .other (← optionalText "The description" description))

/-- The outline of a type of a kind. -/
def outlineOfKind (kind : TypeKind) (name value : Json) :
    Except SchemaFault (Text × Outline) :=
  match kind with
  | .scalar => scalarOutline name value
  | .object => objectOutline name value
  | .interface => compositeOutline none name value
  | .union => compositeOutline (some "possibleTypes") name value
  | .enum => enumOutline name value
  | .inputObject => compositeOutline (some "inputFields") name value

/-- The outline of a described type, with its place among the described types. -/
def outline (value : Json) : Except SchemaFault (DescribedType × Outline) := do
  let name ← ask (value.member "name")
  match value.get? "kind" with
  | none => fault (.noKind value.inspect)
  | some word =>
    let word ← ask word.asKey
    match kindOfWord? word with
    | none => fault (.noKind value.inspect)
    | some kind =>
      let (name, outline) ← outlineOfKind kind name value
      pure (⟨name, kind, value⟩, outline)

/-- The type that an outline is of, parts with references still to be worked out. -/
def typeDraft (types : List DescribedType) (type : DescribedType) (outline : Outline) :
    TypeDraft SchemaFault :=
  match Standard.type? type.name, outline with
  | some standard, _ | _, .standard standard => .ofType standard
  | none, .scalar description specifiedBy =>
    ⟨type.name, description, .scalar specifiedBy⟩
  | none, .enum description values => ⟨type.name, description, .enum values⟩
  | none, .other description =>
    ⟨type.name, description,
      match type.kind with
      | .interface => .interface (interfaces types type) (fields types type)
      | .union => .union (members types type)
      | .inputObject =>
        .inputObject (inputFields (inputTypes types) types type) (oneOf type.description)
      | _ => .object (interfaces types type) (fields types type)⟩

/-- The locations of a directive that is described. -/
def locations (owner : Text) (values : List Json) : Except SchemaFault (List Text) :=
  values.mapM fun value =>
    match value with
    | .text content =>
      if Document.directiveLocations.contains content then .ok content
      else fault (.locations owner)
    | _ => fault (.locations owner)

/-- A directive that is described. -/
def directive (types : List DescribedType) (value : Json) : Except SchemaFault Directive := do
  let arguments? ← ask (value.lookup "args")
  if arguments?.isNull then fault (.missing "directive args" value.inspect)
  else
    let locations? ← ask (value.lookup "locations")
    if locations?.isNull then fault (.missing "directive locations" value.inspect)
    else
      let name ← ask (value.member "name")
      let description ← ask (value.lookup "description")
      let deprecation ← ask (value.lookup "deprecationReason")
      let places ← ask locations?.elements
      let arguments ← arguments types arguments?
      let name ← checkedName name
      let locations ← locations name places
      if !haveTextNames arguments then fault (.argumentNames name)
      else
        let arguments ← checkedParts arguments
        match (value.get? "isRepeatable").getD (.boolean false) with
        | .boolean isRepeatable =>
          let description ← optionalText (name ++ " description") description
          let deprecation ← optionalText (name ++ " deprecation reason") deprecation
          pure ⟨name, description, named arguments, isRepeatable, locations, deprecation⟩
        | _ => fault (.repeatable name)

/-- The type that serves an operation, if one does. -/
def root (types : List DescribedType) (schema : Json) (name : Text) :
    Except SchemaFault (Option Text) := do
  let value ← ask (schema.lookup name)
  if value.isNull then pure none
  else return some (← referenceOfKind types .object "Object" value)

/-- The directives that are described, if any are. -/
def directives (types : List DescribedType) (schema : Json) :
    Except SchemaFault (List Directive) := do
  let value ← ask (schema.lookup "directives")
  if value.isFalsy then pure []
  else (← ask value.elements).mapM (directive types)

end Described

/-- The schema that an introspection result describes. -/
def ofIntrospection (result : Json) : Except SchemaFault Schema := do
  match result.get? "__schema" with
  | some (.object members) =>
    let schema := Json.object members
    let described ← Described.ask (schema.member "types")
    let outlines ← (← Described.ask described.elements).mapM Described.outline
    let outlines := Named.ofList (fun outline => outline.1.name) outlines
    let types := outlines.map (·.1)
    let query ← Described.root types schema "queryType"
    let mutation ← Described.root types schema "mutationType"
    let subscription ← Described.root types schema "subscriptionType"
    let directives ← Described.directives types schema
    let description ← Described.optionalText "Schema description"
      (← Described.ask (schema.lookup "description"))
    Draft.assemble {
      description, query, mutation, subscription, directives
      types := outlines.map fun (type, outline) => Described.typeDraft types type outline
      isTrusted := false }
  | _ => Described.fault (.noSchema result.inspect)

end SchemaOrder.Schema
