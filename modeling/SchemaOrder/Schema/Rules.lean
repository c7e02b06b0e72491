import SchemaOrder.Schema.Basic
import SchemaOrder.Text.Quoted

/-!
# Rules for schemas

This module holds the rules that a schema has to keep before it is described by
introspection, in the order in which breaches of them are reported: operations,
directives, then the types of the index. A type keeps the promises of the interfaces
that it implements, and no input object needs a value of itself.
-/

namespace SchemaOrder.Schema

/-- How a schema breaks a rule. -/
inductive Violation where
  /-- No type serves queries. -/
  | noQuery
  /-- An operation is served by a type that is no object. -/
  | rootKind (operation name : Text) (isOptional : Bool)
  /-- A name that is reserved for introspection. -/
  | reservedName (name : Text)
  /-- A directive that stands nowhere. -/
  | noLocations (directive : Text)
  /-- An argument or an input field of a type that takes no values. -/
  | notInput (place : Text) (type : TypeReference)
  /-- A field of a type that gives no values. -/
  | notOutput (place : Text) (type : TypeReference)
  /-- An argument that has to be given and is deprecated. -/
  | deprecatedArgument (place : Text)
  /-- An input field that has to be given and is deprecated. -/
  | deprecatedInputField (place : Text)
  /-- An object or an interface without fields. -/
  | noFields (owner : Text)
  /-- A union without members. -/
  | noMembers (owner : Text)
  /-- An enum without values. -/
  | noValues (owner : Text)
  /-- An input object without fields. -/
  | noInputFields (owner : Text)
  /-- Something other than an interface is implemented. -/
  | notInterface (owner name : Text)
  /-- An interface implements itself. -/
  | implementsItself (owner : Text)
  /-- An interface is implemented twice. -/
  | implementedTwice (owner interfaceName : Text)
  /-- An interface is implemented that implements the type in turn. -/
  | circularInterface (owner interfaceName : Text)
  /-- An interface of an interface is not implemented. -/
  | ancestorMissing (owner ancestor interfaceName : Text)
  /-- A field of an interface is missing. -/
  | fieldMissing (owner interfaceName field : Text)
  /-- A field is of another type than in the interface. -/
  | fieldType (owner interfaceName field : Text) (type expected : TypeReference)
  /-- An argument of a field of an interface is missing. -/
  | argumentMissing (owner interfaceName field argument : Text)
  /-- An argument is of another type than in the interface. -/
  | argumentType (owner interfaceName field argument : Text) (type expected : TypeReference)
  /-- An argument has to be given that the interface does not have. -/
  | argumentRequired (owner interfaceName field argument : Text)
  /-- A union has a member twice. -/
  | memberTwice (owner member : Text)
  /-- A union has a member that is no object. -/
  | memberKind (owner member : Text)
  /-- A field of an object of which exactly one field is given refuses null. -/
  | oneOfNonNull (place : Text)
  /-- A field of an object of which exactly one field is given has a default. -/
  | oneOfDefault (place : Text)
  /-- An input object needs a value of itself. -/
  | circularInput (name : Text) (path : List Text)
deriving Repr

/-- The words for a violation. -/
def Violation.message : Violation → Text
  | .noQuery => "Query root type must be provided."
  | .rootKind operation name isOptional =>
    let condition : Text := if isOptional then " if provided" else []
    operation ++ " root type must be Object type" ++ condition ++ ", it cannot be " ++ name ++ "."
  | .reservedName name =>
    "Name " ++ name.quoted ++
      " must not begin with '__', which is reserved by GraphQL introspection."
  | .noLocations directive =>
    "Directive @" ++ directive ++ " must include 1 or more locations."
  | .notInput place type =>
    "The type of " ++ place ++ " must be Input Type but got: " ++ type.text ++ "."
  | .notOutput place type =>
    "The type of " ++ place ++ " must be Output Type but got: " ++ type.text ++ "."
  | .deprecatedArgument place => "Required argument " ++ place ++ " cannot be deprecated."
  | .deprecatedInputField place => "Required input field " ++ place ++ " cannot be deprecated."
  | .noFields owner => "Type " ++ owner ++ " must define one or more fields."
  | .noMembers owner => "Union type " ++ owner ++ " must define one or more member types."
  | .noValues owner => "Enum type " ++ owner ++ " must define one or more values."
  | .noInputFields owner => "Input Object type " ++ owner ++ " must define one or more fields."
  | .notInterface owner name =>
    "Type " ++ owner ++ " must only implement Interface types, it cannot implement " ++ name ++ "."
  | .implementsItself owner =>
    "Type " ++ owner ++
      " cannot implement itself because it would create a circular reference."
  | .implementedTwice owner interfaceName =>
    "Type " ++ owner ++ " can only implement " ++ interfaceName ++ " once."
  | .circularInterface owner interfaceName =>
    "Type " ++ owner ++ " cannot implement " ++ interfaceName ++
      " because it would create a circular reference."
  | .ancestorMissing owner ancestor interfaceName =>
    "Type " ++ owner ++ " must implement " ++ ancestor ++ " because it is implemented by " ++
      interfaceName ++ "."
  | .fieldMissing owner interfaceName field =>
    "Interface field " ++ interfaceName ++ "." ++ field ++ " expected but " ++ owner ++
      " does not provide it."
  | .fieldType owner interfaceName field type expected =>
    "Interface field " ++ interfaceName ++ "." ++ field ++ " expects type " ++ expected.text ++
      " but " ++ owner ++ "." ++ field ++ " is type " ++ type.text ++ "."
  | .argumentMissing owner interfaceName field argument =>
    "Interface field argument " ++ interfaceName ++ "." ++ field ++ "(" ++ argument ++
      ":) expected but " ++ owner ++ "." ++ field ++ " does not provide it."
  | .argumentType owner interfaceName field argument type expected =>
    "Interface field argument " ++ interfaceName ++ "." ++ field ++ "(" ++ argument ++
      ":) expects type " ++ expected.text ++ " but " ++ owner ++ "." ++ field ++ "(" ++
      argument ++ ":) is type " ++ type.text ++ "."
  | .argumentRequired owner interfaceName field argument =>
    "Object field " ++ owner ++ "." ++ field ++ " includes required argument " ++ argument ++
      " that is missing from the Interface field " ++ interfaceName ++ "." ++ field ++ "."
  | .memberTwice owner member =>
    "Union type " ++ owner ++ " can only include type " ++ member ++ " once."
  | .memberKind owner member =>
    "Union type " ++ owner ++ " can only include Object types, it cannot include " ++ member ++ "."
  | .oneOfNonNull place => "OneOf input field " ++ place ++ " must be nullable."
  | .oneOfDefault place => "OneOf input field " ++ place ++ " cannot have a default value."
  | .circularInput name path =>
    "Cannot reference Input Object " ++ name.quote ++
      " within itself through a series of non-null fields: " ++
      (Text.join "." path).quote ++ "."

/-- A violation where a condition holds. -/
def violationIf (condition : Bool) (violation : Violation) : List Violation :=
  if condition then [violation] else []

/-- Whether an argument or an input field has to be given. -/
def InputValue.isRequired (input : InputValue) : Bool :=
  input.type.isNonNull && input.default?.isNone

namespace Rules

/-- Names that begin with two underscores. -/
def checkName (name : Text) : List Violation :=
  violationIf (name.startsWith "__") (.reservedName name)

/-- The type that serves an operation other than queries. -/
def checkRoot (schema : Schema) (operation : Text) (isOptional : Bool) (root : Option Text) :
    List Violation :=
  match root with
  | none => violationIf (!isOptional) .noQuery
  | some name =>
    violationIf (schema.kind? name ≠ some .object) (.rootKind operation name isOptional)

/-- The types that serve operations. -/
def checkRoots (schema : Schema) : List Violation :=
  checkRoot schema "Query" false schema.query ++
    checkRoot schema "Mutation" true schema.mutation ++
    checkRoot schema "Subscription" true schema.subscription

/-- Whether a reference leads to a type of a kind that is asked for. -/
def leadsTo (schema : Schema) (type : TypeReference) (admitted : TypeKind → Bool) : Bool :=
  match schema.kind? type.base with
  | some kind => admitted kind
  | none => false

/-- The arguments of a field or a directive, whose place is written before them. -/
def checkArguments (schema : Schema) (owner : Text) (arguments : List InputValue) :
    List Violation :=
  arguments.flatMap fun argument =>
    let place : Text := owner ++ "(" ++ argument.name ++ ":)"
    checkName argument.name ++
      violationIf (!leadsTo schema argument.type TypeKind.isInput)
        (.notInput place argument.type) ++
      violationIf (argument.isRequired && argument.deprecation.isSome) (.deprecatedArgument place)

/-- A directive. -/
def checkDirective (schema : Schema) (directive : Directive) : List Violation :=
  checkName directive.name ++
    violationIf directive.locations.isEmpty (.noLocations directive.name) ++
    checkArguments schema ("@" ++ directive.name) directive.arguments

/-- The fields of an object or an interface. -/
def checkFields (schema : Schema) (type : NamedType) : List Violation :=
  violationIf type.fields.isEmpty (.noFields type.name) ++
    type.fields.flatMap fun field =>
      let place : Text := type.name ++ "." ++ field.name
      checkName field.name ++
        violationIf (!leadsTo schema field.type TypeKind.isOutput) (.notOutput place field.type) ++
        checkArguments schema place field.arguments

/-- Whether what one name leads to may stand for what another one leads to: the other is
an interface that it implements, or a union that it is a member of. -/
def isNamedSubtype (schema : Schema) (name super : Text) : Bool :=
  name = super ||
    match schema.type? super with
    | some type =>
      match type.body with
      | .union members =>
        members.contains name &&
          (schema.kind? name = some .object || schema.kind? name = some .interface)
      | .interface .. =>
        (schema.implementingObjects super).contains name ||
          (schema.implementingInterfaces super).contains name
      | _ => false
    | none => false

/-- Whether values of one reference may stand for values of another one. -/
def isSubtype (schema : Schema) : TypeReference → TypeReference → Bool
  | .nonNull type, .nonNull super => isSubtype schema type super
  | .nonNull type, super => isSubtype schema type super
  | .list type, .list super => isSubtype schema type super
  | .named name, .named super => isNamedSubtype schema name super
  | _, _ => false

/-- The interfaces of an interface that a type implements have to be implemented, too. -/
def checkAncestors (type interfaceType : NamedType) : List Violation :=
  interfaceType.interfaces.flatMap fun ancestor =>
    violationIf (!type.interfaces.contains ancestor)
      (if ancestor = type.name then .circularInterface type.name interfaceType.name
        else .ancestorMissing type.name ancestor interfaceType.name)

/-- A field against the field of an interface with its name. -/
def checkPromise (schema : Schema) (owner interfaceName : Text) (field promised : Field) :
    List Violation :=
  violationIf (!isSubtype schema field.type promised.type)
    (.fieldType owner interfaceName field.name field.type promised.type) ++
  promised.arguments.flatMap (fun expected =>
    match Named.find? InputValue.name expected.name field.arguments with
    | none => [.argumentMissing owner interfaceName field.name expected.name]
    | some argument =>
      violationIf (argument.type ≠ expected.type)
        (.argumentType owner interfaceName field.name argument.name argument.type
          expected.type)) ++
  field.arguments.flatMap fun argument =>
    violationIf (argument.isRequired &&
        (Named.find? InputValue.name argument.name promised.arguments).isNone)
      (.argumentRequired owner interfaceName field.name argument.name)

/-- A type against an interface that it implements. -/
def checkPromises (schema : Schema) (type interfaceType : NamedType) : List Violation :=
  interfaceType.fields.flatMap fun promised =>
    match Named.find? Field.name promised.name type.fields with
    | none => [.fieldMissing type.name interfaceType.name promised.name]
    | some field => checkPromise schema type.name interfaceType.name field promised

/-- The interfaces that a type implements; `seen` are those already looked at. -/
def checkInterfacesFrom (schema : Schema) (type : NamedType) (seen : List Text) :
    List Text → List Violation
  | [] => []
  | name :: rest =>
    match schema.type? name with
    | none => .notInterface type.name name :: checkInterfacesFrom schema type seen rest
    | some interfaceType =>
      if interfaceType.kind ≠ .interface then
        .notInterface type.name name :: checkInterfacesFrom schema type seen rest
      else
        violationIf (name = type.name) (.implementsItself type.name) ++
          if seen.contains name then
            .implementedTwice type.name name :: checkInterfacesFrom schema type seen rest
          else
            checkAncestors type interfaceType ++ checkPromises schema type interfaceType ++
              checkInterfacesFrom schema type (name :: seen) rest

/-- The members of a union; `seen` are those already looked at. -/
def checkMembersFrom (schema : Schema) (owner : Text) (seen : List Text) :
    List Text → List Violation
  | [] => []
  | name :: rest =>
    if schema.kind? name ≠ some .object then
      .memberKind owner name :: checkMembersFrom schema owner seen rest
    else if seen.contains name then
      .memberTwice owner name :: checkMembersFrom schema owner seen rest
    else checkMembersFrom schema owner (name :: seen) rest

/-- A field of an input object. -/
def checkInputField (schema : Schema) (owner : Text) (isOneOf : Bool) (field : InputValue) :
    List Violation :=
  let place : Text := owner ++ "." ++ field.name
  checkName field.name ++
    violationIf (!leadsTo schema field.type TypeKind.isInput) (.notInput place field.type) ++
    violationIf (field.isRequired && field.deprecation.isSome) (.deprecatedInputField place) ++
    violationIf (isOneOf && field.type.isNonNull) (.oneOfNonNull place) ++
    violationIf (isOneOf && field.default?.isSome) (.oneOfDefault place)

/-- How far the search for input objects that need a value of themselves has come. -/
structure InputSearch where
  /-- The input objects that were looked at. -/
  visited : List Text
  /-- What was found, the last one first. -/
  found : List Violation

/-- An input object on the way of the search: its name, and how many fields were passed
before it. -/
abbrev InputTrail := List (Text × Nat)

/-- Follows the fields of an input object that refuse null. An input object that is on
the way already closes a circle; every step down visits one more input object, so that
their number bounds the depth. -/
def followInputs (fuel : Nat) (schema : Schema) (trail : InputTrail) (path : List Text)
    (search : InputSearch) (name : Text) (fields : List InputValue) : InputSearch :=
  match fuel with
  | 0 => search
  | fuel + 1 =>
    if search.visited.contains name then search
    else
      let trail : InputTrail := (name, path.length) :: trail
      fields.foldl (fun search field =>
        match field.type with
        | .nonNull (.named next) =>
          match (schema.type? next).map NamedType.body with
          | some (.inputObject nextFields _) =>
            let path := path ++ [field.name]
            match trail.find? fun entry => entry.1 = next with
            | some (_, start) =>
              { search with found := .circularInput next (path.drop start) :: search.found }
            | none => followInputs fuel schema trail path search next nextFields
          | _ => search
        | _ => search) { search with visited := name :: search.visited }

/-- What the rules say about one type apart from its name. -/
def checkBody (schema : Schema) (type : NamedType) : List Violation :=
  match type.body with
  | .scalar _ => []
  | .object interfaces _ | .interface interfaces _ =>
    checkFields schema type ++ checkInterfacesFrom schema type [] interfaces
  | .union members =>
    violationIf members.isEmpty (.noMembers type.name) ++
      checkMembersFrom schema type.name [] members
  | .enum values =>
    violationIf values.isEmpty (.noValues type.name) ++
      values.flatMap fun value => checkName value.name
  | .inputObject fields oneOf =>
    violationIf fields.isEmpty (.noInputFields type.name) ++
      fields.flatMap (checkInputField schema type.name !oneOf.isFalsy)

/-- An entry of the index, after the entries before it. -/
def checkEntry (schema : Schema) (search : InputSearch) (entry : Entry) : InputSearch :=
  let named := if isIntrospectionType entry.name then [] else checkName entry.name
  match entry with
  | .kindless _ => { search with found := named.reverse ++ search.found }
  | .defined type =>
    let found := (named ++ checkBody schema type).reverse ++ search.found
    let search := { search with found }
    match type.body with
    | .inputObject fields _ =>
      followInputs (schema.types.length + 1) schema [] [] search type.name fields
    | _ => search

end Rules

/-- What the rules say about a schema. -/
def violations (schema : Schema) : List Violation :=
  let search := schema.index.foldl (Rules.checkEntry schema) ⟨[], []⟩
  Rules.checkRoots schema ++ schema.directives.flatMap (Rules.checkDirective schema) ++
    search.found.reverse

/-- What validation says about a schema: what it said before, if it has done so. -/
def validationMessages (schema : Schema) : List Text :=
  match schema.validation with
  | some messages => messages
  | none => schema.violations.map Violation.message

end SchemaOrder.Schema
