import SchemaOrder.Document.Excerpt
import SchemaOrder.Document.Token
import SchemaOrder.Json.Access
import SchemaOrder.Text.Quoted
import SchemaOrder.TypeReference

/-!
# Faults of schemas

This module holds why definitions do not make a schema, wherever they come from: names
that are no names, references that lead nowhere or to a type of the wrong kind, and
arguments of directives that do not fit. A fault found while the parts of a type were
worked out says so.
-/

namespace SchemaOrder

/-- What a reference to a type has to be in its place. -/
inductive TypePlace where
  | argument
  | field
  | inputField
deriving DecidableEq, Repr

/-- A part of a type that is worked out when the type is collected. -/
inductive TypePart where
  | fields
  | interfaces
  | members
deriving DecidableEq, Repr

/-- The word for a part of a type. -/
def TypePart.word : TypePart → Text
  | .fields => "fields"
  | .interfaces => "interfaces"
  | .members => "types"

/-- Why the description of a schema in JSON cannot be read. -/
inductive IntrospectionFault where
  /-- The description as a whole is no object. -/
  | noSchema (shown : Text)
  /-- A type of no kind. -/
  | noKind (shown : Text)
  /-- Something that lacks a part which it has to have. -/
  | missing (part shown : Text)
  /-- A reference that names no type. -/
  | noReference (shown : Text)
  /-- A reference to a type that is not described. -/
  | unlisted (name : Text)
  /-- A reference with more lists and refusals of null than were asked for. -/
  | tooDeep
  /-- A reference to a type that is not of the kind it has to be. -/
  | notOfKind (reference kind : Text)
  /-- A type that cannot stand in its place. -/
  | misplaced (direction place reference : Text)
  /-- A name that is null. -/
  | nullName
  /-- A name that is no text. -/
  | nameNotText
  /-- The fields of a type, one of which has a name that is no text. -/
  | fieldNames (owner : Text)
  /-- The arguments of a directive, one of which has a name that is no text. -/
  | argumentNames (owner : Text)
  /-- A text that is none. -/
  | notText (subject : Text)
  /-- An address of a specification that is no text. -/
  | addressNotText (owner shown : Text)
  /-- A location of a directive that there is not. -/
  | locations (owner : Text)
  /-- A flag of a directive that is neither true nor false. -/
  | repeatable (owner : Text)
  /-- Something that is not there or not of the kind that was taken for granted. -/
  | access (fault : Json.AccessFault)
deriving Repr

namespace IntrospectionFault

/-- The words for a fault. -/
def message : IntrospectionFault → Text
  | .noSchema shown =>
    "Invalid or incomplete introspection result. Ensure that you are passing the 'data' " ++
      "attribute of an introspection response and no 'errors' were returned alongside: " ++
      shown ++ "."
  | .noKind shown =>
    "Invalid or incomplete introspection result. Ensure that a full introspection query is " ++
      "used in order to build a client schema: " ++ shown ++ "."
  | .missing part shown => "Introspection result missing " ++ part ++ ": " ++ shown ++ "."
  | .noReference shown => "Unknown type reference: " ++ shown ++ "."
  | .unlisted name =>
    "Invalid or incomplete schema, unknown type: " ++ name ++ ". Ensure that a full " ++
      "introspection query is used in order to build a client schema."
  | .tooDeep => "Decorated type deeper than introspection query."
  | .notOfKind reference kind =>
    "Expected " ++ reference ++ " to be a GraphQL " ++ kind ++ " type."
  | .misplaced direction place reference =>
    "Introspection must provide " ++ direction ++ " type for " ++ place ++
      ", but received: " ++ reference ++ "."
  | .nullName => "Must provide name."
  | .nameNotText => "Expected name to be a string."
  | .fieldNames owner =>
    owner ++ " fields must be specified as a mapping with field names as keys."
  | .argumentNames owner =>
    owner ++ " args must be a dict with argument names as keys."
  | .notText subject => subject ++ " must be a string."
  | .addressNotText owner shown =>
    owner ++ " must provide 'specified_by_url' as a string, but got: " ++ shown ++ "."
  | .locations owner =>
    owner ++ " locations must be specified as a collection of DirectiveLocation enum values."
  | .repeatable owner => owner ++ " is_repeatable flag must be True or False."
  | .access fault => fault.message

/-- The kind of failure that a fault is. -/
def kind : IntrospectionFault → FailureKind
  | .access fault => fault.kind
  | _ => .mismatch

end IntrospectionFault

/-- Why definitions do not make a schema. -/
inductive SchemaFault where
  /-- A name without a code point. -/
  | emptyName
  /-- A name with a code point that names do not have. -/
  | nameContinue (name : Text)
  /-- A name with a code point that names do not begin with. -/
  | nameStart (name : Text)
  /-- An enum value named like another literal. -/
  | enumValueName (name : Text)
  /-- A type named like a standard type of another kind. -/
  | reservedType (name : Text)
  /-- A reference to a type that no definition has. -/
  | unknownType (name : Text)
  /-- A reference to a type of the wrong kind for its place. -/
  | wrongPlace (place : TypePlace)
  /-- An interface that is none. -/
  | notInterfaces (owner : Text)
  /-- A member of a union that is no object. -/
  | notObjects (owner : Text)
  /-- A default for a type that has none. -/
  | unexpectedInputType (name : Text)
  /-- An argument of a directive that is not given. -/
  | argumentMissing (name type excerpt : Text)
  /-- An argument of a directive that is null. -/
  | argumentNull (name type excerpt : Text)
  /-- An argument of a directive whose value does not fit. -/
  | argumentInvalid (name value excerpt : Text)
  /-- Definitions that break the rules of the schema language. -/
  | forbidden (messages : List Text)
  /-- An extension of a type of another kind. -/
  | extensionKind (name kind : Text)
  /-- An extension of an enum that has no values, because it extends a type of another
  kind. -/
  | extensionWithout (kind part : Text)
  /-- A default that is no value of the schema language, and its source. -/
  | malformedDefault (fault : Document.ReadFault) (source : Text)
  /-- An input object whose defaults lead back to itself. -/
  | endlessDefault (name : Text)
  /-- A fault found while a part of a type was worked out. -/
  | unresolved (owner : Text) (part : TypePart) (fault : SchemaFault)
  /-- A description in JSON that cannot be read. -/
  | introspection (fault : IntrospectionFault)
deriving Repr

namespace SchemaFault

/-- The words for a malformed document, with an excerpt. -/
def malformedDocument (fault : Document.ReadFault) (source : Text) : Text :=
  "Syntax Error: " ++ fault.cause.message ++ "\n\n" ++
    Document.excerptAt source fault.position

/-- The kind of failure that a fault is. A part that cannot be worked out is a breach of
the schema language if its cause is one. -/
def kind : SchemaFault → FailureKind
  | .emptyName | .nameContinue _ | .nameStart _ | .enumValueName _ => .language
  | .argumentMissing .. | .argumentNull .. | .argumentInvalid .. => .language
  | .extensionWithout .. => .missingAttribute
  | .malformedDefault .. => .document
  | .endlessDefault _ => .endless
  | .unresolved _ _ fault =>
    match fault.kind with
    | .language | .document => .language
    | _ => .mismatch
  | .introspection fault => fault.kind
  | _ => .mismatch

/-- A message with an excerpt below it, if there is one. -/
def withExcerpt (message excerpt : Text) : Text :=
  if excerpt.isEmpty then message else message ++ "\n\n" ++ excerpt

/-- The words for a place. -/
def placeMessage : TypePlace → Text
  | .argument => "Argument type must be a GraphQL input type."
  | .field => "Field type must be an output type."
  | .inputField => "Input field type must be a GraphQL input type."

/-- The words for a fault, without an excerpt of the document, and the excerpt. -/
def messageAndExcerpt : SchemaFault → Text × Text
  | .emptyName => ("Expected name to be a non-empty string.", [])
  | .nameContinue name =>
    ("Names must only contain [_a-zA-Z0-9] but " ++ name.quoted ++ " does not.", [])
  | .nameStart name =>
    ("Names must start with [_a-zA-Z] but " ++ name.quoted ++ " does not.", [])
  | .enumValueName name => ("Enum values cannot be named: " ++ name ++ ".", [])
  | .reservedType name => ("Redefinition of reserved type " ++ name.quoted, [])
  | .unknownType name => ("Unknown type: " ++ name.quote ++ ".", [])
  | .wrongPlace place => (placeMessage place, [])
  | .notInterfaces owner =>
    (owner ++ " interfaces must be specified as a collection of GraphQLInterfaceType instances.",
      [])
  | .notObjects owner =>
    (owner ++ " types must be specified as a collection of GraphQLObjectType instances.", [])
  | .unexpectedInputType name => ("Unexpected input type: " ++ name ++ ".", [])
  | .argumentMissing name type excerpt =>
    ("Argument " ++ name.quote ++ " of required type " ++ type.quote ++ " was not provided.",
      excerpt)
  | .argumentNull name type excerpt =>
    ("Argument " ++ name.quote ++ " of non-null type " ++ type.quote ++ " must not be null.",
      excerpt)
  | .argumentInvalid name value excerpt =>
    ("Argument " ++ name.quote ++ " has invalid value " ++ value ++ ".", excerpt)
  | .forbidden messages => (Text.join "\n\n" messages, [])
  | .extensionKind name kind =>
    (name ++ " extension AST nodes must be specified as a collection of " ++ kind ++
      " instances.", [])
  | .extensionWithout kind part =>
    (kind.quote ++ " object has no attribute " ++ part.quote, [])
  | .malformedDefault fault source => (malformedDocument fault source, [])
  | .endlessDefault _ => ("maximum recursion depth exceeded", [])
  | .unresolved owner part fault =>
    let inner := fault.messageAndExcerpt
    (owner ++ " " ++ part.word ++ " cannot be resolved. " ++ withExcerpt inner.1 inner.2, [])
  | .introspection fault => (fault.message, [])

/-- The words for a fault. -/
def message (fault : SchemaFault) : Text :=
  fault.messageAndExcerpt.1

/-- The words for a fault, with the excerpt of the document it was found at. -/
def description (fault : SchemaFault) : Text :=
  let parts := fault.messageAndExcerpt
  withExcerpt parts.1 parts.2

end SchemaFault

/-- Checks that a text is a name: letters, digits and underscores of ASCII, without a
digit in front. What follows the first code point is looked at first. -/
def checkName (name : Text) : Except SchemaFault Unit :=
  match name with
  | [] => .error .emptyName
  | first :: rest =>
    if !rest.all CodePoint.isNameContinue then .error (.nameContinue name)
    else if !first.isNameStart then .error (.nameStart name)
    else .ok ()

/-- Checks that a text is a name for an enum value. -/
def checkEnumValueName (name : Text) : Except SchemaFault Unit := do
  checkName name
  let reserved : List Text := ["true", "false", "null"]
  if reserved.contains name then .error (.enumValueName name) else .ok ()

end SchemaOrder
