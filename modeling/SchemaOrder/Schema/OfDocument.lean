import SchemaOrder.Schema.Coercion
import SchemaOrder.Schema.Draft
import SchemaOrder.Schema.Fault

/-!
# Schemas of documents

This module holds the schema that a document defines. Definitions and their extensions
are put together, references are looked up, defaults are coerced to their types, and
what is said by standard directives becomes part of what they are applied to. Standard
types stay what they are, whatever a document defines under their names. Which documents
are refused before is in `SchemaOrder.Document.Rules`.
-/

namespace SchemaOrder.Schema

open Document (Literal)

/-- The definitions of a document as far as types look each other up. -/
structure Definitions where
  /-- The text of the document, for excerpts. -/
  source : Text
  /-- The definitions of types, one for a name. -/
  types : List Document.TypeDefinition
  /-- The extensions of types. -/
  extensions : List Document.TypeDefinition

namespace Definitions

/-- The definition of a type with all its extensions. -/
def nodes (definitions : Definitions) (definition : Document.TypeDefinition) :
    List Document.TypeDefinition :=
  definition :: definitions.extensions.filter fun extension =>
    extension.name = definition.name

/-- The kind of the type that a name leads to. -/
def kindOf (definitions : Definitions) (name : Text) : Except SchemaFault TypeKind :=
  match Standard.type? name with
  | some type => .ok type.kind
  | none =>
    match Named.find? Document.TypeDefinition.name name definitions.types with
    | some definition => .ok definition.body.kind
    | none => .error (.unknownType name)

/-- The types that standard directives take their arguments of. -/
def standardInputTypes : InputTypes SchemaFault where
  shape _ := .scalar
  notInput name := .unexpectedInputType name

/-- The value of one argument of a directive; `none` where there is none. -/
def argumentValue (definitions : Definitions) (argument : InputValue)
    (directive : Document.Directive) : Except SchemaFault (Option Value) :=
  let excerpt := Document.excerptAt definitions.source
  match directive.arguments.reverse.find? fun given => given.name = argument.name with
  | none =>
    match argument.default? with
    | some value => .ok (some value)
    | none =>
      if argument.type.isNonNull then
        .error (.argumentMissing argument.name argument.type.text (excerpt directive.position))
      else .ok none
  | some given =>
    match given.value, argument.type.isNonNull with
    | .null, true =>
      .error (.argumentNull argument.name argument.type.text (excerpt given.valuePosition))
    | value, _ => do
      match ← Coercion.coerce standardInputTypes value argument.type with
      | some value => pure (some value)
      | none =>
        .error (.argumentInvalid argument.name value.write (excerpt given.valuePosition))

/-- The values of the arguments of a standard directive, if it is applied. -/
def appliedArguments (definitions : Definitions) (standard : Directive)
    (directives : List Document.Directive) :
    Except SchemaFault (Option (List (Text × Value))) :=
  match directives.find? fun directive => directive.name = standard.name with
  | none => .ok none
  | some directive => do
    let values ← standard.arguments.mapM fun argument => do
      return (argument.name, ← definitions.argumentValue argument directive)
    pure (some (values.filterMap fun (name, value?) => value?.map fun value => (name, value)))

/-- The text that an argument of a standard directive has, if it is applied. -/
def appliedText (definitions : Definitions) (standard : Directive) (argument : Text)
    (directives : List Document.Directive) : Except SchemaFault (Option Text) := do
  match ← definitions.appliedArguments standard directives with
  | none => pure none
  | some values =>
    match Named.find? Prod.fst argument values with
    | some (_, .text content) => pure (some content)
    | _ => pure none

/-- Why something is deprecated, if it is. -/
def deprecation (definitions : Definitions) (directives : List Document.Directive) :
    Except SchemaFault (Option Text) :=
  definitions.appliedText Standard.deprecatedDirective "reason" directives

/-- Something that has its place only under a name of the right kind. -/
def checkPlace (admitted : Bool) (place : TypePlace) : Except SchemaFault Unit :=
  if admitted then .ok () else .error (.wrongPlace place)

/-- An argument or an input field as defined. -/
def inputValue (definitions : Definitions) (types : InputTypes SchemaFault)
    (place : TypePlace) (definition : Document.InputValueDefinition) :
    Except SchemaFault InputValue := do
  let kind ← definitions.kindOf definition.type.base
  let default? ←
    match definition.default? with
    | none => pure none
    | some literal => Coercion.coerce types literal definition.type
  let deprecation ← definitions.deprecation definition.directives
  checkPlace kind.isInput place
  pure ⟨definition.name, definition.type, default?, definition.description, deprecation⟩

/-- The name of the kind of an extension in messages. -/
def extensionWord : TypeKind → Text
  | .scalar => "ScalarTypeExtensionNode"
  | .object => "ObjectTypeExtensionNode"
  | .interface => "InterfaceTypeExtensionNode"
  | .union => "UnionTypeExtensionNode"
  | .enum => "EnumTypeExtensionNode"
  | .inputObject => "InputObjectTypeExtensionNode"

/-- All extensions of a type are of its kind. -/
def checkExtensions (definitions : Definitions) (definition : Document.TypeDefinition) :
    Except SchemaFault Unit :=
  let kind := definition.body.kind
  if (definitions.nodes definition).all fun node => node.body.kind = kind then .ok ()
  else .error (.extensionKind definition.name (extensionWord kind))

/-- The fields of an input object as defined by it and its extensions. -/
def definedInputFields (definitions : Definitions) (types : InputTypes SchemaFault)
    (definition : Document.TypeDefinition) : Except SchemaFault (List InputValue) := do
  let fields ← (definitions.nodes definition).mapM fun node =>
    match node.body with
    | .inputObject fields => fields.mapM (definitions.inputValue types .inputField)
    | _ => .ok []
  pure (Named.ofList InputValue.name fields.flatten)

/-- The names of the values of an enum as defined by it and its extensions. -/
def enumValueNames (definitions : Definitions) (definition : Document.TypeDefinition) :
    List Text :=
  (definitions.nodes definition).flatMap fun node =>
    match node.body with
    | .enum values => values.map Document.EnumValueDefinition.name
    | _ => []

/-- Whether an input object takes exactly one of its fields. -/
def isOneOf (definitions : Definitions) (definition : Document.TypeDefinition) :
    Except SchemaFault Bool := do
  return (← definitions.appliedArguments Standard.oneOfDirective definition.directives).isSome

/-- The names of the values of an enum. -/
def enumNames (type : NamedType) : List Text :=
  match type.body with
  | .enum values => values.map EnumValue.name
  | _ => []

/-- A fault in a part of a type. -/
def within {α : Type} (owner : Text) (part : TypePart) (result : Except SchemaFault α) :
    Except SchemaFault α :=
  result.mapError (.unresolved owner part)

/-- What coercion has to know of a type. The defaults of the fields of an input object are
coerced in turn; the fuel bounds how far one leads to another. -/
def inputShape (fuel : Nat) (definitions : Definitions) (name : Text) :
    InputShape SchemaFault :=
  match Standard.type? name with
  | some type =>
    match type.kind with
    | .scalar => .scalar
    | .enum => .enum (enumNames type)
    | _ => .output
  | none =>
    match Named.find? Document.TypeDefinition.name name definitions.types with
    | none => .output
    | some definition =>
      match definition.body with
      | .scalar => .scalar
      | .enum _ => .enum (definitions.enumValueNames definition)
      | .inputObject _ =>
        let fields : Except SchemaFault (List InputValue) :=
          match fuel with
          | 0 => .error (.endlessDefault name)
          | fuel + 1 =>
            within name .fields <| definitions.definedInputFields
              ⟨inputShape fuel definitions, .unexpectedInputType⟩ definition
        let isOneOf :=
          match definitions.isOneOf definition with
          | .ok isOneOf => isOneOf
          | .error _ => false
        .inputObject fields isOneOf
      | _ => .output

/-- What coercion has to know of the types of a document. No chain of defaults that ends
is longer than the document has types. -/
def inputTypes (definitions : Definitions) : InputTypes SchemaFault :=
  ⟨inputShape (definitions.types.length + 1) definitions, .unexpectedInputType⟩

/-- The arguments of a field or a directive as defined. -/
def arguments (definitions : Definitions) (defined : List Document.InputValueDefinition) :
    Except SchemaFault (List InputValue) := do
  let arguments ← defined.mapM (definitions.inputValue definitions.inputTypes .argument)
  pure (Named.ofList InputValue.name arguments)

/-- A field as defined. -/
def field (definitions : Definitions) (definition : Document.FieldDefinition) :
    Except SchemaFault Field := do
  let kind ← definitions.kindOf definition.type.base
  let arguments ← definitions.arguments definition.arguments
  let deprecation ← definitions.deprecation definition.directives
  checkPlace kind.isOutput .field
  pure ⟨definition.name, definition.type, arguments, definition.description, deprecation⟩

/-- The fields of an object or an interface as defined by it and its extensions. -/
def fields (definitions : Definitions) (definition : Document.TypeDefinition) :
    Except SchemaFault (List Field) :=
  within definition.name .fields do
    let fields ← (definitions.nodes definition).mapM fun node =>
      match node.body with
      | .object _ fields | .interface _ fields => fields.mapM definitions.field
      | _ => .ok []
    pure (Named.ofList Field.name fields.flatten)

/-- The interfaces that a type implements, as defined by it and its extensions. -/
def interfaces (definitions : Definitions) (definition : Document.TypeDefinition) :
    Except SchemaFault (List Text) := do
  let kinds ← within definition.name .interfaces do
    let names ← (definitions.nodes definition).mapM fun node =>
      match node.body with
      | .object names _ | .interface names _ =>
        names.mapM fun name => do return (name, ← definitions.kindOf name)
      | _ => .ok []
    pure names.flatten
  if kinds.all fun entry => entry.2 = .interface then pure (kinds.map (·.1))
  else .error (.notInterfaces definition.name)

/-- The members of a union as defined by it and its extensions. -/
def members (definitions : Definitions) (definition : Document.TypeDefinition) :
    Except SchemaFault (List Text) := do
  let kinds ← within definition.name .members do
    let names ← (definitions.nodes definition).mapM fun node =>
      match node.body with
      | .union names => names.mapM fun name => do return (name, ← definitions.kindOf name)
      | _ => .ok []
    pure names.flatten
  if kinds.all fun entry => entry.2 = .object then pure (kinds.map (·.1))
  else .error (.notObjects definition.name)

/-- The values of an enum as defined by it and its extensions. -/
def enumValues (definitions : Definitions) (definition : Document.TypeDefinition) :
    Except SchemaFault (List EnumValue) := do
  let values ← (definitions.nodes definition).mapM fun node =>
    match node.body with
    | .enum values => values.mapM fun value => do
      return (⟨value.name, value.description, ← definitions.deprecation value.directives⟩ :
        EnumValue)
    | _ => .error (.extensionWithout (extensionWord node.body.kind) "values")
  pure (Named.ofList EnumValue.name values.flatten)

/-- The type that a definition defines, parts with references still to be worked out. -/
def typeDraft (definitions : Definitions) (definition : Document.TypeDefinition) :
    Except SchemaFault (TypeDraft SchemaFault) := do
  match Standard.type? definition.name with
  | some type => pure (.ofType type)
  | none =>
    let body : DraftBody SchemaFault ←
      match definition.body with
      | .scalar =>
        pure (.scalar (← definitions.appliedText Standard.specifiedByDirective "url"
          definition.directives))
      | .object .. =>
        pure (.object (definitions.interfaces definition) (definitions.fields definition))
      | .interface .. =>
        pure (.interface (definitions.interfaces definition) (definitions.fields definition))
      | .union _ => pure (.union (definitions.members definition))
      | .enum _ => pure (.enum (← definitions.enumValues definition))
      | .inputObject _ =>
        let isOneOf ← definitions.isOneOf definition
        let fields := within definition.name .fields
          (definitions.definedInputFields definitions.inputTypes definition)
        pure (.inputObject fields (.boolean isOneOf))
    definitions.checkExtensions definition
    pure ⟨definition.name, definition.description, body⟩

/-- A directive as defined. -/
def directive (definitions : Definitions) (definition : Document.DirectiveDefinition) :
    Except SchemaFault Directive := do
  let arguments ← definitions.arguments definition.arguments
  pure ⟨definition.name, definition.description, arguments, definition.isRepeatable,
    definition.locations, none⟩

end Definitions

/-- The parts of a document that define a schema. -/
structure DocumentParts where
  schemas : List Document.SchemaDefinition
  schemaExtensions : List Document.SchemaDefinition
  types : List Document.TypeDefinition
  typeExtensions : List Document.TypeDefinition
  directives : List Document.DirectiveDefinition

namespace DocumentParts

/-- The parts of a document. -/
def ofDefinitions (definitions : List Document.Definition) : DocumentParts where
  schemas := definitions.filterMap fun
    | .schema definition => some definition
    | _ => none
  schemaExtensions := definitions.filterMap fun
    | .schemaExtension definition => some definition
    | _ => none
  types := definitions.filterMap fun
    | .type definition => some definition
    | _ => none
  typeExtensions := definitions.filterMap fun
    | .typeExtension definition => some definition
    | _ => none
  directives := definitions.filterMap fun
    | .directive definition => some definition
    | _ => none

/-- Whether nothing of a schema is defined. -/
def isEmpty (parts : DocumentParts) : Bool :=
  parts.schemas.isEmpty && parts.schemaExtensions.isEmpty && parts.types.isEmpty &&
    parts.typeExtensions.isEmpty && parts.directives.isEmpty

/-- The types that serve operations as the schema and its extensions define them. -/
def operations (parts : DocumentParts) : List (Document.Operation × Text) :=
  (parts.schemas.reverse.take 1 ++ parts.schemaExtensions).flatMap
    Document.SchemaDefinition.operations

/-- The type that serves an operation: where no schema is defined, the type with the usual
name, and otherwise the one that was defined last. -/
def root (parts : DocumentParts) (operation : Document.Operation) (usual : Text) :
    Option Text :=
  let defined := (parts.operations.reverse.find? fun entry => entry.1 = operation).map (·.2)
  if parts.schemas.isEmpty && parts.types.any fun type => type.name = usual then some usual
  else defined

end DocumentParts

/-- The standard directives that are not among the given ones. -/
def missingDirectives (directives : List Directive) : List Directive :=
  Standard.directives.filter fun standard =>
    !directives.any fun directive => directive.name = standard.name

/-- The schema that a document defines. Of several types with one name the last one counts,
though all of them have to make sense on their own. A document without definitions of a
schema defines the empty one, which is not taken to be valid. -/
def ofDocument (source : Text) (document : List Document.Definition) (isTrusted : Bool) :
    Except SchemaFault Schema := do
  let parts := DocumentParts.ofDefinitions document
  let definitions : Definitions :=
    ⟨source, Named.ofList Document.TypeDefinition.name parts.types, parts.typeExtensions⟩
  let drafts ← parts.types.mapM definitions.typeDraft
  parts.operations.forM fun entry => do
    let _ ← definitions.kindOf entry.2
  let directives ← parts.directives.mapM definitions.directive
  Draft.assemble {
    description := (parts.schemas.getLast?.bind (·.description))
    query := parts.root .query "Query"
    mutation := parts.root .mutation "Mutation"
    subscription := parts.root .subscription "Subscription"
    directives := directives ++ missingDirectives directives
    types := Named.ofList TypeDraft.name drafts
    isTrusted := isTrusted && !parts.isEmpty }

end SchemaOrder.Schema
