import SchemaOrder.Document.Basic
import SchemaOrder.Schema.Standard
import SchemaOrder.Text.Suggestion

/-!
# Rules for documents

This module holds the rules that a document has to keep before it is asked which schema
it defines: names that are defined once, types and directives that exist, directives that
stand where they may, and arguments that are known, given once and not left out. All
breaches are found, in the order of the document; at one place they come in the order of
the rules. Whether the schema makes sense as a whole is another question, which
`SchemaOrder.Schema.Rules` answers.
-/

namespace SchemaOrder.Document

/-- A breach of a rule. -/
inductive Breach where
  | severalSchemas
  | severalOperations (operation : Operation)
  | severalTypes (name : Text)
  | severalEnumValues (type value : Text)
  | severalFields (type field : Text)
  | severalArgumentDefinitions (owner argument : Text)
  | severalDirectiveDefinitions (name : Text)
  | unknownType (name : Text) (suggested : List Text)
  | misplacedDirective (name location : Text)
  | unknownDirective (name : Text)
  | repeatedDirective (name : Text)
  | extensionKind (kind : TypeKind) (name : Text)
  | extensionOfNothing (name : Text) (suggested : List Text)
  | unknownArgument (directive argument : Text) (suggested : List Text)
  | severalArguments (name : Text)
  | severalInputFields (name : Text)
  | missingArgument (directive argument type : Text)
deriving Repr

/-- The words for a kind of type. -/
def kindWords : TypeKind → Text
  | .scalar => "scalar"
  | .object => "object"
  | .interface => "interface"
  | .union => "union"
  | .enum => "enum"
  | .inputObject => "input object"

/-- The words for a breach. -/
def Breach.message : Breach → Text
  | .severalSchemas => "Must provide only one schema definition."
  | .severalOperations operation =>
    "There can be only one " ++ operation.word ++ " type in schema."
  | .severalTypes name => "There can be only one type named " ++ name.quote ++ "."
  | .severalEnumValues type value =>
    "Enum value " ++ Text.quote (type ++ "." ++ value) ++ " can only be defined once."
  | .severalFields type field =>
    "Field " ++ Text.quote (type ++ "." ++ field) ++ " can only be defined once."
  | .severalArgumentDefinitions owner argument =>
    "Argument " ++ Text.quote (owner ++ "(" ++ argument ++ ":)") ++
      " can only be defined once."
  | .severalDirectiveDefinitions name =>
    "There can be only one directive named " ++ Text.quote ("@" ++ name) ++ "."
  | .unknownType name suggested =>
    "Unknown type " ++ name.quote ++ "." ++ Text.didYouMean suggested
  | .misplacedDirective name location =>
    "Directive " ++ Text.quote ("@" ++ name) ++ " may not be used on " ++ location ++ "."
  | .unknownDirective name => "Unknown directive " ++ Text.quote ("@" ++ name) ++ "."
  | .repeatedDirective name =>
    "The directive " ++ Text.quote ("@" ++ name) ++ " can only be used once at this location."
  | .extensionKind kind name =>
    "Cannot extend non-" ++ kindWords kind ++ " type " ++ name.quote ++ "."
  | .extensionOfNothing name suggested =>
    "Cannot extend type " ++ name.quote ++ " because it is not defined." ++
      Text.didYouMean suggested
  | .unknownArgument directive argument suggested =>
    "Unknown argument " ++ argument.quote ++ " on directive " ++
      Text.quote ("@" ++ directive) ++ "." ++ Text.didYouMean suggested
  | .severalArguments name =>
    "There can be only one argument named " ++ name.quote ++ "."
  | .severalInputFields name =>
    "There can be only one input field named " ++ name.quote ++ "."
  | .missingArgument directive argument type =>
    "Directive " ++ Text.quote ("@" ++ directive) ++ " argument " ++ argument.quote ++
      " of type " ++ type.quote ++ " is required, but it was not provided."

/-- What the rules have to know of a directive. -/
structure DirectiveRule where
  name : Text
  locations : List Text
  isRepeatable : Bool
  arguments : List Text
  /-- The arguments that have to be given, with the texts of their types. -/
  required : List (Text × Text)

/-- What the rules have to know of a standard directive. -/
def DirectiveRule.ofStandard (directive : Schema.Directive) : DirectiveRule where
  name := directive.name
  locations := directive.locations
  isRepeatable := directive.isRepeatable
  arguments := directive.arguments.map Schema.InputValue.name
  required := (directive.arguments.filter fun argument =>
    argument.type.isNonNull && argument.default?.isNone).map fun argument =>
      (argument.name, argument.type.text)

/-- What the rules have to know of a directive that a document defines. -/
def DirectiveRule.ofDefinition (definition : DirectiveDefinition) : DirectiveRule where
  name := definition.name
  locations := definition.locations
  isRepeatable := definition.isRepeatable
  arguments := definition.arguments.map InputValueDefinition.name
  required := Named.ofList Prod.fst <|
    (definition.arguments.filter fun argument =>
      argument.type.isNonNull && argument.default?.isNone).map fun argument =>
        (argument.name, argument.type.text)

/-- What the rules have to know of a document. -/
structure Overview where
  /-- The types that the document defines, by name. -/
  types : List TypeDefinition
  directives : List DirectiveRule

/-- What the rules have to know of a document. A directive that the document defines takes
the place of a standard one. -/
def Overview.ofDocument (document : List Definition) : Overview where
  types := document.filterMap fun
    | .type definition => some definition
    | _ => none
  directives := Named.ofList DirectiveRule.name <|
    Schema.Standard.directives.map DirectiveRule.ofStandard ++ document.filterMap fun
      | .directive definition => some (DirectiveRule.ofDefinition definition)
      | _ => none

/-- What has been seen of a document on the way, and the breaches found, the last one
first. -/
structure Progress where
  hasSchema : Bool
  operations : List Operation
  types : List Text
  /-- Enum values, with the names of their types. -/
  enumValues : List (Text × Text)
  /-- Fields, with the names of their types. -/
  fields : List (Text × Text)
  directives : List Text
  /-- Directives applied to the schema. -/
  onSchema : List Text
  /-- Directives applied to types, with the names of the types. -/
  onTypes : List (Text × Text)
  breaches : List Breach

/-- A walk along a document. -/
abbrev Inspection := StateM Progress Unit

namespace Inspection

/-- A breach is found. -/
def report (breach : Breach) : Inspection :=
  modify fun progress => { progress with breaches := breach :: progress.breaches }

/-- The names that stand in a list more than once, in the order in which they come up. -/
def repeated (names : List Text) : List Text :=
  names.eraseDups.filter fun name => 1 < names.count name

/-- Whether a name leads to a type. Inside definitions of a schema the standard types are
there, too; elsewhere they are not. -/
def typeName (overview : Overview) (isInSchema : Bool) (name : Text) : Inspection := do
  let defined := overview.types.map TypeDefinition.name
  if defined.contains name || (isInSchema && Schema.isStandardType name) then pure ()
  else
    let options :=
      if isInSchema then Schema.standardScalars ++ Schema.introspectionTypes ++ defined
      else defined
    report (.unknownType name (Text.suggestions name options))

/-- The names of fields of an object, from those already seen on; deeper objects first
finish before the walk goes on. -/
def inputFieldNames (seen : List Text) (name : Text) : Inspection :=
  if seen.contains name then report (.severalInputFields name) else pure ()

mutual

/-- The objects inside a value. -/
def literal : Literal → Inspection
  | .list items => literals items
  | .object fields => objectFields [] fields
  | _ => pure ()

/-- The objects inside the values of a list. -/
def literals : List Literal → Inspection
  | [] => pure ()
  | item :: rest => do
    literal item
    literals rest

/-- The fields of an object, each of which stands once. -/
def objectFields (seen : List Text) : List (Text × Literal) → Inspection
  | [] => pure ()
  | (name, value) :: rest => do
    inputFieldNames seen name
    literal value
    objectFields (name :: seen) rest

end

/-- Arguments that are given, each of which stands once. -/
def argumentValues (arguments : List Argument) : Inspection :=
  arguments.forM fun argument => literal argument.value

/-- Arguments that are given more than once. -/
def repeatedArguments (arguments : List Argument) : Inspection :=
  (repeated (arguments.map Argument.name)).forM fun name => report (.severalArguments name)

/-- The words for a location of a directive in messages. -/
def locationWords (location : Text) : Text :=
  (location.replaceAll "_" " ").lower

/-- A directive where it is applied. -/
def directive (overview : Overview) (location : Text) (applied : Directive) : Inspection := do
  let rule? := Named.find? DirectiveRule.name applied.name overview.directives
  match rule? with
  | none => report (.unknownDirective applied.name)
  | some rule =>
    if rule.locations.contains location then pure ()
    else report (.misplacedDirective applied.name (locationWords location))
    applied.arguments.forM fun argument =>
      if rule.arguments.contains argument.name then pure ()
      else
        report (.unknownArgument applied.name argument.name
          (Text.suggestions argument.name rule.arguments))
  repeatedArguments applied.arguments
  argumentValues applied.arguments
  match rule? with
  | none => pure ()
  | some rule =>
    rule.required.forM fun (name, type) =>
      if applied.arguments.any fun argument => argument.name = name then pure ()
      else report (.missingArgument applied.name name type)

/-- Directives where they are applied. -/
def directives (overview : Overview) (location : Text) (applied : List Directive) :
    Inspection :=
  applied.forM (directive overview location)

/-- The directives among the given ones that may be applied once only. -/
def unrepeatable (overview : Overview) (applied : List Directive) : List Text :=
  (applied.map Directive.name).filter fun name =>
    match Named.find? DirectiveRule.name name overview.directives with
    | some rule => !rule.isRepeatable
    | none => false

/-- Directives of which each stands once at its place. -/
def uniqueHere (overview : Overview) (applied : List Directive) : Inspection :=
  go [] (unrepeatable overview applied)
where
  /-- The walk along the names. -/
  go (seen : List Text) : List Text → Inspection
    | [] => pure ()
    | name :: rest => do
      if seen.contains name then report (.repeatedDirective name) else pure ()
      go (name :: seen) rest

/-- Directives of the schema, of which each stands once on it and all its extensions. -/
def uniqueOnSchema (overview : Overview) (applied : List Directive) : Inspection :=
  (unrepeatable overview applied).forM fun name => do
    if (← get).onSchema.contains name then report (.repeatedDirective name)
    else modify fun progress => { progress with onSchema := name :: progress.onSchema }

/-- Directives of a type, of which each stands once on it and all its extensions. -/
def uniqueOnType (overview : Overview) (type : Text) (applied : List Directive) :
    Inspection :=
  (unrepeatable overview applied).forM fun name => do
    if (← get).onTypes.contains (type, name) then report (.repeatedDirective name)
    else modify fun progress => { progress with onTypes := (type, name) :: progress.onTypes }

/-- A default, if there is one. -/
def defaultLiteral (default? : Option Literal) : Inspection :=
  match default? with
  | some value => literal value
  | none => pure ()

/-- The definition of an argument or an input field. -/
def inputValue (overview : Overview) (location : Text) (definition : InputValueDefinition) :
    Inspection := do
  uniqueHere overview definition.directives
  typeName overview true definition.type.base
  defaultLiteral definition.default?
  directives overview location definition.directives

/-- The definitions of arguments. -/
def argumentDefinitions (overview : Overview) (arguments : List InputValueDefinition) :
    Inspection :=
  arguments.forM (inputValue overview "ARGUMENT_DEFINITION")

/-- The definition of a field. -/
def fieldDefinition (overview : Overview) (definition : FieldDefinition) : Inspection := do
  uniqueHere overview definition.directives
  argumentDefinitions overview definition.arguments
  typeName overview true definition.type.base
  directives overview "FIELD_DEFINITION" definition.directives

/-- The definition of an enum value. -/
def enumValueDefinition (overview : Overview) (definition : EnumValueDefinition) :
    Inspection := do
  uniqueHere overview definition.directives
  directives overview "ENUM_VALUE" definition.directives

/-- Enum values, each of which is defined once for a type. -/
def uniqueEnumValues (type : Text) (values : List EnumValueDefinition) : Inspection :=
  values.forM fun value => do
    if (← get).enumValues.contains (type, value.name) then
      report (.severalEnumValues type value.name)
    else
      modify fun progress =>
        { progress with enumValues := (type, value.name) :: progress.enumValues }

/-- Fields, each of which is defined once for a type. -/
def uniqueFields (type : Text) (names : List Text) : Inspection :=
  names.forM fun name => do
    if (← get).fields.contains (type, name) then report (.severalFields type name)
    else modify fun progress => { progress with fields := (type, name) :: progress.fields }

/-- Arguments, each of which is defined once for its owner. -/
def uniqueArguments (owner : Text) (arguments : List InputValueDefinition) : Inspection :=
  (repeated (arguments.map InputValueDefinition.name)).forM fun name =>
    report (.severalArgumentDefinitions owner name)

/-- The location of directives on a kind of type. -/
def locationOfKind : TypeKind → Text
  | .scalar => "SCALAR"
  | .object => "OBJECT"
  | .interface => "INTERFACE"
  | .union => "UNION"
  | .enum => "ENUM"
  | .inputObject => "INPUT_OBJECT"

/-- What defines the members of a type, each of which is defined once. -/
def uniqueMembers (definition : TypeDefinition) : Inspection :=
  match definition.body with
  | .enum values => uniqueEnumValues definition.name values
  | .object _ fields | .interface _ fields => do
    uniqueFields definition.name (fields.map FieldDefinition.name)
    fields.forM fun field =>
      uniqueArguments (definition.name ++ "." ++ field.name) field.arguments
  | .inputObject fields =>
    uniqueFields definition.name (fields.map InputValueDefinition.name)
  | _ => pure ()

/-- The parts of a type. `fieldLocation` is where its input fields say they are. -/
def typeParts (overview : Overview) (fieldLocation : Text) (definition : TypeDefinition) :
    Inspection := do
  let applied := directives overview (locationOfKind definition.body.kind)
    definition.directives
  match definition.body with
  | .scalar => applied
  | .object interfaces fields | .interface interfaces fields =>
    interfaces.forM (typeName overview true)
    applied
    fields.forM (fieldDefinition overview)
  | .union members =>
    applied
    members.forM (typeName overview true)
  | .enum values =>
    applied
    values.forM (enumValueDefinition overview)
  | .inputObject fields =>
    applied
    fields.forM (inputValue overview fieldLocation)

/-- Whether an extension extends a type of its kind that the document defines. -/
def extensionTarget (overview : Overview) (definition : TypeDefinition) : Inspection :=
  match overview.types.reverse.find? fun type => type.name = definition.name with
  | some type =>
    if type.body.kind = definition.body.kind then pure ()
    else report (.extensionKind definition.body.kind definition.name)
  | none =>
    report (.extensionOfNothing definition.name
      (Text.suggestions definition.name (overview.types.map TypeDefinition.name)))

/-- Operations, each of which has one type. -/
def uniqueOperations (operations : List (Operation × Text)) : Inspection :=
  operations.forM fun (operation, _) => do
    if (← get).operations.contains operation then report (.severalOperations operation)
    else
      modify fun progress => { progress with operations := operation :: progress.operations }

/-- The parts of the schema or of an extension of it. -/
def schemaParts (overview : Overview) (definition : SchemaDefinition) : Inspection := do
  uniqueOperations definition.operations
  uniqueOnSchema overview definition.directives
  directives overview "SCHEMA" definition.directives
  definition.operations.forM fun (_, type) => typeName overview true type

mutual

/-- A selection. -/
def selection (overview : Overview) : Selection → Inspection
  | .field _ _ arguments applied inner => do
    uniqueHere overview applied
    repeatedArguments arguments
    argumentValues arguments
    directives overview "FIELD" applied
    selections overview inner
  | .spread _ applied => do
    uniqueHere overview applied
    directives overview "FRAGMENT_SPREAD" applied
  | .inline condition applied inner => do
    uniqueHere overview applied
    match condition with
    | some name => typeName overview false name
    | none => pure ()
    directives overview "INLINE_FRAGMENT" applied
    selections overview inner

/-- Selections. -/
def selections (overview : Overview) : List Selection → Inspection
  | [] => pure ()
  | first :: rest => do
    selection overview first
    selections overview rest

end

/-- The definition of a variable. -/
def variableDefinition (overview : Overview) (definition : VariableDefinition) :
    Inspection := do
  uniqueHere overview definition.directives
  typeName overview false definition.type.base
  defaultLiteral definition.default?
  directives overview "VARIABLE_DEFINITION" definition.directives

/-- The location of directives on an operation. -/
def locationOfOperation : Operation → Text
  | .query => "QUERY"
  | .mutation => "MUTATION"
  | .subscription => "SUBSCRIPTION"

/-- A part of a document. -/
def definition (overview : Overview) : Definition → Inspection
  | .schema schema => do
    if (← get).hasSchema then report .severalSchemas else pure ()
    modify fun progress => { progress with hasSchema := true }
    schemaParts overview schema
  | .schemaExtension schema => schemaParts overview schema
  | .type type => do
    if (← get).types.contains type.name then report (.severalTypes type.name)
    else modify fun progress => { progress with types := type.name :: progress.types }
    uniqueMembers type
    uniqueOnType overview type.name type.directives
    typeParts overview "INPUT_FIELD_DEFINITION" type
  | .typeExtension type => do
    uniqueMembers type
    uniqueOnType overview type.name type.directives
    extensionTarget overview type
    -- the fields of an extension are not known to be those of an input object
    typeParts overview "ARGUMENT_DEFINITION" type
  | .directive directive => do
    uniqueArguments ("@" ++ directive.name) directive.arguments
    if (← get).directives.contains directive.name then
      report (.severalDirectiveDefinitions directive.name)
    else
      modify fun progress =>
        { progress with directives := directive.name :: progress.directives }
    argumentDefinitions overview directive.arguments
  | .operation operation definitions applied inner => do
    uniqueHere overview applied
    definitions.forM (variableDefinition overview)
    directives overview (locationOfOperation operation) applied
    selections overview inner
  | .fragment _ condition applied inner => do
    uniqueHere overview applied
    typeName overview false condition
    directives overview "FRAGMENT_DEFINITION" applied
    selections overview inner

end Inspection

/-- The breaches of rules in a document. -/
def breaches (document : List Definition) : List Breach :=
  let overview := Overview.ofDocument document
  let start : Progress := ⟨false, [], [], [], [], [], [], [], []⟩
  let (_, finish) := (document.forM (Inspection.definition overview)).run start
  finish.breaches.reverse

end SchemaOrder.Document
