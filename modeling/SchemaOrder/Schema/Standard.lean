import SchemaOrder.Schema.Basic

/-!
# Standard definitions

This module holds the types and directives that every schema has without defining them:
the standard scalars, the types by which a schema describes itself, and the standard
directives, with the descriptions that introspection shows.
-/

namespace SchemaOrder.Schema.Standard

/-- The standard scalar `String`. -/
def stringScalar : NamedType :=
  ⟨"String",
    (some ("The `String` scalar type represents textual data, represented as UTF-8 character " ++
           "sequences. The String type is most often used by GraphQL to represent free-form " ++
           "human-readable text.")),
    .scalar none⟩

/-- The standard scalar `Int`. -/
def intScalar : NamedType :=
  ⟨"Int",
    (some ("The `Int` scalar type represents non-fractional signed whole numeric values. Int " ++
           "can represent values between -(2^31) and 2^31 - 1.")),
    .scalar none⟩

/-- The standard scalar `Float`. -/
def floatScalar : NamedType :=
  ⟨"Float",
    (some ("The `Float` scalar type represents signed double-precision fractional values as " ++
           "specified by [IEEE 754](https://en.wikipedia.org/wiki/IEEE_floating_point).")),
    .scalar none⟩

/-- The standard scalar `Boolean`. -/
def booleanScalar : NamedType :=
  ⟨"Boolean",
    (some "The `Boolean` scalar type represents `true` or `false`."),
    .scalar none⟩

/-- The standard scalar `ID`. -/
def idScalar : NamedType :=
  ⟨"ID",
    (some ("The `ID` scalar type represents a unique identifier, often used to refetch an " ++
           "object or as key for a cache. The ID type appears in a JSON response as a String; " ++
           "however, it is not intended to be human-readable. When expected as an input type, " ++
           "any string (such as `\"4\"`) or integer (such as `4`) input value will be " ++
           "accepted as an ID.")),
    .scalar none⟩

/-- The argument that asks for what is deprecated, too. -/
def includeDeprecated : InputValue :=
  ⟨"includeDeprecated", .named "Boolean", (some (.boolean false)), none, none⟩

/-- The argument that asks for what is deprecated, too, where it refuses null. -/
def requiredIncludeDeprecated : InputValue :=
  ⟨"includeDeprecated", .nonNull (.named "Boolean"), (some (.boolean false)), none, none⟩

/-- The introspection type `__Schema`. -/
def schemaIntrospection : NamedType :=
  ⟨"__Schema",
    (some ("A GraphQL Schema defines the capabilities of a GraphQL server. It exposes all " ++
           "available types and directives on the server, as well as the entry points for " ++
           "query, mutation, and subscription operations.")),
    .object [] [
      ⟨"description", .named "String", [],
        none, none⟩,
      ⟨"types", .nonNull (.list (.nonNull (.named "__Type"))), [],
        (some "A list of all types supported by this server."), none⟩,
      ⟨"queryType", .nonNull (.named "__Type"), [],
        (some "The type that query operations will be rooted at."), none⟩,
      ⟨"mutationType", .named "__Type", [],
        (some ("If this server supports mutation, the type that mutation operations will be " ++
           "rooted at.")), none⟩,
      ⟨"subscriptionType", .named "__Type", [],
        (some ("If this server supports subscription, the type that subscription operations " ++
           "will be rooted at.")), none⟩,
      ⟨"directives", .nonNull (.list (.nonNull (.named "__Directive"))),
        [requiredIncludeDeprecated],
        (some "A list of all directives supported by this server."), none⟩]⟩

/-- The introspection type `__Directive`. -/
def directiveIntrospection : NamedType :=
  ⟨"__Directive",
    (some ("A Directive provides a way to describe alternate runtime execution and type " ++
           "validation behavior in a GraphQL document.\n\nIn some cases, you need to provide " ++
           "options to alter GraphQL's execution behavior in ways field arguments will not " ++
           "suffice, such as conditionally including or skipping a field. Directives provide " ++
           "this by describing additional information to the executor.")),
    .object [] [
      ⟨"name", .nonNull (.named "String"), [],
        none, none⟩,
      ⟨"description", .named "String", [],
        none, none⟩,
      ⟨"isRepeatable", .nonNull (.named "Boolean"), [],
        none, none⟩,
      ⟨"locations", .nonNull (.list (.nonNull (.named "__DirectiveLocation"))), [],
        none, none⟩,
      ⟨"args", .nonNull (.list (.nonNull (.named "__InputValue"))), [includeDeprecated],
        none, none⟩,
      ⟨"isDeprecated", .nonNull (.named "Boolean"), [],
        none, none⟩,
      ⟨"deprecationReason", .named "String", [],
        none, none⟩]⟩

/-- The introspection type `__DirectiveLocation`. -/
def directiveLocationIntrospection : NamedType :=
  ⟨"__DirectiveLocation",
    (some ("A Directive can be adjacent to many parts of the GraphQL language, a " ++
           "__DirectiveLocation describes one such possible adjacencies.")),
    .enum [
      ⟨"QUERY", (some "Location adjacent to a query operation."), none⟩,
      ⟨"MUTATION", (some "Location adjacent to a mutation operation."), none⟩,
      ⟨"SUBSCRIPTION", (some "Location adjacent to a subscription operation."), none⟩,
      ⟨"FIELD", (some "Location adjacent to a field."), none⟩,
      ⟨"FRAGMENT_DEFINITION", (some "Location adjacent to a fragment definition."), none⟩,
      ⟨"FRAGMENT_SPREAD", (some "Location adjacent to a fragment spread."), none⟩,
      ⟨"INLINE_FRAGMENT", (some "Location adjacent to an inline fragment."), none⟩,
      ⟨"VARIABLE_DEFINITION", (some "Location adjacent to a variable definition."), none⟩,
      ⟨"SCHEMA", (some "Location adjacent to a schema definition."), none⟩,
      ⟨"SCALAR", (some "Location adjacent to a scalar definition."), none⟩,
      ⟨"OBJECT", (some "Location adjacent to an object type definition."), none⟩,
      ⟨"FIELD_DEFINITION", (some "Location adjacent to a field definition."), none⟩,
      ⟨"ARGUMENT_DEFINITION", (some "Location adjacent to an argument definition."), none⟩,
      ⟨"INTERFACE", (some "Location adjacent to an interface definition."), none⟩,
      ⟨"UNION", (some "Location adjacent to a union definition."), none⟩,
      ⟨"ENUM", (some "Location adjacent to an enum definition."), none⟩,
      ⟨"ENUM_VALUE", (some "Location adjacent to an enum value definition."), none⟩,
      ⟨"INPUT_OBJECT", (some "Location adjacent to an input object type definition."), none⟩,
      ⟨"INPUT_FIELD_DEFINITION",
        (some "Location adjacent to an input object field definition."), none⟩,
      ⟨"DIRECTIVE_DEFINITION", (some "Location adjacent to a directive definition."), none⟩]⟩

/-- The introspection type `__Type`. -/
def typeIntrospection : NamedType :=
  ⟨"__Type",
    (some ("The fundamental unit of any GraphQL Schema is the type. There are many kinds of " ++
           "types in GraphQL as represented by the `__TypeKind` enum.\n\nDepending on the " ++
           "kind of a type, certain fields describe information about that type. Scalar types " ++
           "provide no information beyond a name, description and optional `specifiedByURL`, " ++
           "while Enum types provide their values. Object and Interface types provide the " ++
           "fields they describe. Abstract types, Union and Interface, provide the Object " ++
           "types possible at runtime. List and NonNull types compose other types.")),
    .object [] [
      ⟨"kind", .nonNull (.named "__TypeKind"), [],
        none, none⟩,
      ⟨"name", .named "String", [],
        none, none⟩,
      ⟨"description", .named "String", [],
        none, none⟩,
      ⟨"specifiedByURL", .named "String", [],
        none, none⟩,
      ⟨"fields", .list (.nonNull (.named "__Field")), [includeDeprecated],
        none, none⟩,
      ⟨"interfaces", .list (.nonNull (.named "__Type")), [],
        none, none⟩,
      ⟨"possibleTypes", .list (.nonNull (.named "__Type")), [],
        none, none⟩,
      ⟨"enumValues", .list (.nonNull (.named "__EnumValue")), [includeDeprecated],
        none, none⟩,
      ⟨"inputFields", .list (.nonNull (.named "__InputValue")), [includeDeprecated],
        none, none⟩,
      ⟨"ofType", .named "__Type", [],
        none, none⟩,
      ⟨"isOneOf", .named "Boolean", [],
        none, none⟩]⟩

/-- The introspection type `__Field`. -/
def fieldIntrospection : NamedType :=
  ⟨"__Field",
    (some ("Object and Interface types are described by a list of Fields, each of which has a " ++
           "name, potentially a list of arguments, and a return type.")),
    .object [] [
      ⟨"name", .nonNull (.named "String"), [],
        none, none⟩,
      ⟨"description", .named "String", [],
        none, none⟩,
      ⟨"args", .nonNull (.list (.nonNull (.named "__InputValue"))), [includeDeprecated],
        none, none⟩,
      ⟨"type", .nonNull (.named "__Type"), [],
        none, none⟩,
      ⟨"isDeprecated", .nonNull (.named "Boolean"), [],
        none, none⟩,
      ⟨"deprecationReason", .named "String", [],
        none, none⟩]⟩

/-- The introspection type `__InputValue`. -/
def inputValueIntrospection : NamedType :=
  ⟨"__InputValue",
    (some ("Arguments provided to Fields or Directives and the input fields of an InputObject " ++
           "are represented as Input Values which describe their type and optionally a default " ++
           "value.")),
    .object [] [
      ⟨"name", .nonNull (.named "String"), [],
        none, none⟩,
      ⟨"description", .named "String", [],
        none, none⟩,
      ⟨"type", .nonNull (.named "__Type"), [],
        none, none⟩,
      ⟨"defaultValue", .named "String", [],
        (some ("A GraphQL-formatted string representing the default value for this input " ++
           "value.")), none⟩,
      ⟨"isDeprecated", .nonNull (.named "Boolean"), [],
        none, none⟩,
      ⟨"deprecationReason", .named "String", [],
        none, none⟩]⟩

/-- The introspection type `__EnumValue`. -/
def enumValueIntrospection : NamedType :=
  ⟨"__EnumValue",
    (some ("One possible value for a given Enum. Enum values are unique values, not a " ++
           "placeholder for a string or numeric value. However an Enum value is returned in a " ++
           "JSON response as a string.")),
    .object [] [
      ⟨"name", .nonNull (.named "String"), [],
        none, none⟩,
      ⟨"description", .named "String", [],
        none, none⟩,
      ⟨"isDeprecated", .nonNull (.named "Boolean"), [],
        none, none⟩,
      ⟨"deprecationReason", .named "String", [],
        none, none⟩]⟩

/-- The introspection type `__TypeKind`. -/
def typeKindIntrospection : NamedType :=
  ⟨"__TypeKind",
    (some "An enum describing what kind of type a given `__Type` is."),
    .enum [
      ⟨"SCALAR", (some "Indicates this type is a scalar."), none⟩,
      ⟨"OBJECT", (some ("Indicates this type is an object. `fields` and `interfaces` are valid " ++
           "fields.")), none⟩,
      ⟨"INTERFACE", (some ("Indicates this type is an interface. `fields`, `interfaces`, and " ++
           "`possibleTypes` are valid fields.")), none⟩,
      ⟨"UNION", (some "Indicates this type is a union. `possibleTypes` is a valid field."), none⟩,
      ⟨"ENUM", (some "Indicates this type is an enum. `enumValues` is a valid field."), none⟩,
      ⟨"INPUT_OBJECT", (some ("Indicates this type is an input object. `inputFields` is a valid " ++
           "field.")), none⟩,
      ⟨"LIST", (some "Indicates this type is a list. `ofType` is a valid field."), none⟩,
      ⟨"NON_NULL", (some "Indicates this type is a non-null. `ofType` is a valid field."), none⟩]⟩

/-- The standard directive `@include`. -/
def includeDirective : Directive :=
  ⟨"include",
    (some ("Directs the executor to include this field or fragment only when the `if` argument " ++
           "is true.")),
    [⟨"if", .nonNull (.named "Boolean"), none, (some "Included when true."), none⟩],
    false,
    ["FIELD", "FRAGMENT_SPREAD", "INLINE_FRAGMENT"], none⟩

/-- The standard directive `@skip`. -/
def skipDirective : Directive :=
  ⟨"skip",
    (some "Directs the executor to skip this field or fragment when the `if` argument is true."),
    [⟨"if", .nonNull (.named "Boolean"), none, (some "Skipped when true."), none⟩],
    false,
    ["FIELD", "FRAGMENT_SPREAD", "INLINE_FRAGMENT"], none⟩

/-- The standard directive `@deprecated`. -/
def deprecatedDirective : Directive :=
  ⟨"deprecated",
    (some "Marks an element of a GraphQL schema as no longer supported."),
    [⟨"reason", .named "String", (some (.text "No longer supported")),
      (some ("Explains why this element was deprecated, usually also including a suggestion for " ++
           "how to access supported similar data. Formatted using the Markdown syntax, as " ++
           "specified by [CommonMark](https://commonmark.org/).")), none⟩],
    false,
    ["FIELD_DEFINITION", "ARGUMENT_DEFINITION", "INPUT_FIELD_DEFINITION", "ENUM_VALUE",
      "DIRECTIVE_DEFINITION"], none⟩

/-- The standard directive `@specifiedBy`. -/
def specifiedByDirective : Directive :=
  ⟨"specifiedBy",
    (some "Exposes a URL that specifies the behavior of this scalar."),
    [⟨"url", .nonNull (.named "String"), none,
      (some "The URL that specifies the behavior of this scalar."), none⟩],
    false,
    ["SCALAR"], none⟩

/-- The standard directive `@oneOf`. -/
def oneOfDirective : Directive :=
  ⟨"oneOf",
    (some "Indicates an Input Object is a OneOf Input Object."),
    [],
    false,
    ["INPUT_OBJECT"], none⟩

/-- The standard types. -/
def types : List NamedType :=
  [stringScalar,
    intScalar,
    floatScalar,
    booleanScalar,
    idScalar,
    schemaIntrospection,
    directiveIntrospection,
    directiveLocationIntrospection,
    typeIntrospection,
    fieldIntrospection,
    inputValueIntrospection,
    enumValueIntrospection,
    typeKindIntrospection]

/-- The standard type with a name. -/
def type? (name : Text) : Option NamedType :=
  types.find? fun type => type.name = name

/-- The standard directives, in the order in which schemas list them. -/
def directives : List Directive :=
  [includeDirective, skipDirective, deprecatedDirective, specifiedByDirective, oneOfDirective]

end SchemaOrder.Schema.Standard
