import SchemaOrder.Document.Basic
import SchemaOrder.Document.Lexer

/-!
# Reading documents

This module holds the reader of documents. It looks at one token at a time, at two
where a description stands before a definition, so that of two faults the one that
stands first is reported. Every loop is bounded by the number of tokens. What is nested
too deeply is refused.
-/

namespace SchemaOrder.Document

/-- What a reader has in front of it: the current token and the tokens behind it. -/
structure Input where
  current : Token
  following : List Token
  /-- Why no more tokens follow, if the end of the document does not. -/
  fault : Option ReadFault
  /-- How many lists, objects and selections are around the current token. -/
  depth : Nat

/-- A reader of a part of a document. -/
abbrev Reader := StateT Input (Except ReadFault)

namespace Reader

/-- The current token. -/
def current : Reader Token := do
  return (← get).current

/-- The number of tokens left, which bounds every loop. -/
def bound : Reader Nat := do
  return (← get).following.length + 2

/-- A malformation at a place. -/
def failAt {α : Type} (position : Nat) (cause : Malformation) : Reader α :=
  throw ⟨cause, position⟩

/-- The token behind the current one. Behind the last token there is only the last. -/
def lookAhead : Reader Token := do
  let input ← get
  match input.following, input.fault with
  | next :: _, _ => pure next
  | [], some fault => throw fault
  | [], none => pure input.current

/-- Moves to the next token. -/
def advance : Reader Unit := do
  let next ← lookAhead
  modify fun input => { input with current := next, following := input.following.drop 1 }

/-- The current token means nothing here. -/
def unexpected {α : Type} : Reader α := do
  let token ← current
  failAt token.position (.unexpected token.kind)

/-- Whether the current token is a mark. -/
def peek (mark : Mark) : Reader Bool := do
  return (← current).kind = .mark mark

/-- Moves behind a mark, which has to stand here. -/
def expect (mark : Mark) : Reader Unit := do
  let token ← current
  if token.kind = .mark mark then advance
  else failAt token.position (.expected mark.text.quote token.kind)

/-- Moves behind a mark if it stands here. -/
def accept (mark : Mark) : Reader Bool := do
  if ← peek mark then
    advance
    pure true
  else pure false

/-- Moves behind a keyword, which has to stand here. -/
def expectKeyword (word : Text) : Reader Unit := do
  let token ← current
  if token.kind = .name word then advance
  else failAt token.position (.expected word.quote token.kind)

/-- Moves behind a keyword if it stands here. -/
def acceptKeyword (word : Text) : Reader Bool := do
  if (← current).kind = .name word then
    advance
    pure true
  else pure false

/-- How many lists, objects and selections may be within each other. -/
def greatestDepth : Nat := 200

/-- Reads a part that counts as a level of nesting. -/
def nested {α : Type} (part : Reader α) : Reader α := do
  let input ← get
  if greatestDepth ≤ input.depth then failAt input.current.position .nestedTooDeeply
  set { input with depth := input.depth + 1 }
  let read ← part
  modify fun input => { input with depth := input.depth - 1 }
  pure read

/-- Reads a name. -/
def name : Reader Text := do
  let token ← current
  match token.kind with
  | .name content =>
    advance
    pure content
  | other => failAt token.position (.expected "Name" other)

/-- Reads parts up to a closing mark; those before are kept backwards. -/
def upTo {α : Type} (fuel : Nat) (part : Reader α) (closing : Mark) (known : List α) :
    Reader (List α) :=
  match fuel with
  | 0 => unexpected
  | fuel + 1 => do
    if ← accept closing then pure known.reverse
    else
      let next ← part
      upTo fuel part closing (next :: known)

/-- Reads any number of parts between two marks. -/
def any {α : Type} (opening : Mark) (part : Reader α) (closing : Mark) : Reader (List α) := do
  expect opening
  upTo (← bound) part closing []

/-- Reads one part or more between two marks. -/
def many {α : Type} (opening : Mark) (part : Reader α) (closing : Mark) : Reader (List α) := do
  expect opening
  let first ← part
  upTo (← bound) part closing [first]

/-- Reads one part or more between two marks, or nothing. -/
def optionalMany {α : Type} (opening : Mark) (part : Reader α) (closing : Mark) :
    Reader (List α) := do
  if ← peek opening then many opening part closing else pure []

/-- Reads parts with a mark between neighbours; those before are kept backwards. -/
def separatedFrom {α : Type} (fuel : Nat) (separator : Mark) (part : Reader α)
    (known : List α) : Reader (List α) :=
  match fuel with
  | 0 => unexpected
  | fuel + 1 => do
    let next ← part
    if ← accept separator then separatedFrom fuel separator part (next :: known)
    else pure (next :: known).reverse

/-- Reads one part or more with a mark between neighbours, which may stand before the
first part, too. -/
def separated {α : Type} (separator : Mark) (part : Reader α) : Reader (List α) := do
  let _ ← accept separator
  separatedFrom (← bound) separator part []

/-- Reads parts as long as a mark stands in front. -/
def whilePeek {α : Type} (fuel : Nat) (mark : Mark) (part : Reader α) (known : List α) :
    Reader (List α) :=
  match fuel with
  | 0 => unexpected
  | fuel + 1 => do
    if ← peek mark then
      let next ← part
      whilePeek fuel mark part (next :: known)
    else pure known.reverse

/-- Reads a reference to a type. -/
def typeReferenceWith (fuel : Nat) : Reader TypeReference :=
  match fuel with
  | 0 => unexpected
  | fuel + 1 => do
    let inner ←
      if ← accept .openBracket then
        let item ← nested do
          let item ← typeReferenceWith fuel
          expect .closeBracket
          pure item
        pure (TypeReference.list item)
      else pure (TypeReference.named (← name))
    if ← accept .bang then pure (.nonNull inner) else pure inner

/-- Reads a reference to a type. -/
def typeReference : Reader TypeReference := do
  typeReferenceWith (← bound)

/-- Reads a variable. -/
def variableName : Reader Text := do
  expect .dollar
  name

/-- The literal that a name is. -/
def wordLiteral (word : Text) : Literal :=
  if word = "true" then .boolean true
  else if word = "false" then .boolean false
  else if word = "null" then .null
  else .enumValue word

/-- Reads a value. -/
def literalWith (fuel : Nat) (isConstant : Bool) : Reader Literal :=
  match fuel with
  | 0 => unexpected
  | fuel + 1 => do
    let token ← current
    match token.kind with
    | .mark .openBracket =>
      return .list (← nested (any .openBracket (literalWith fuel isConstant) .closeBracket))
    | .mark .openBrace =>
      let field : Reader (Text × Literal) := do
        let fieldName ← name
        expect .colon
        return (fieldName, ← literalWith fuel isConstant)
      return .object (← nested (any .openBrace field .closeBrace))
    | .integer digits =>
      advance
      pure (.integer digits)
    | .float digits =>
      advance
      pure (.float digits)
    | .text content =>
      advance
      pure (.text content false)
    | .block content =>
      advance
      pure (.text content true)
    | .name word =>
      advance
      pure (wordLiteral word)
    | .mark .dollar =>
      if isConstant then
        advance
        match (← current).kind with
        | .name word => failAt token.position (.variableInConstant word)
        | _ => failAt token.position (.unexpected token.kind)
      else return .variable (← variableName)
    | _ => unexpected

/-- Reads a value. -/
def literal (isConstant : Bool) : Reader Literal := do
  literalWith (← bound) isConstant

/-- Reads an argument with its value. -/
def argument (isConstant : Bool) : Reader Argument := do
  let argumentName ← name
  expect .colon
  let position := (← current).position
  return ⟨argumentName, ← literal isConstant, position⟩

/-- Reads arguments, if there are any. -/
def arguments (isConstant : Bool) : Reader (List Argument) :=
  optionalMany .openParenthesis (argument isConstant) .closeParenthesis

/-- Reads a directive. -/
def directive (isConstant : Bool) : Reader Directive := do
  let position := (← current).position
  expect .at
  let directiveName ← name
  return ⟨directiveName, ← arguments isConstant, position⟩

/-- Reads directives, if there are any. -/
def directives (isConstant : Bool) : Reader (List Directive) := do
  whilePeek (← bound) .at (directive isConstant) []

/-- Whether a token is a text. -/
def isText : TokenKind → Bool
  | .text _ | .block _ => true
  | _ => false

/-- Reads a description, if there is one. -/
def description : Reader (Option Text) := do
  match (← current).kind with
  | .text content | .block content =>
    advance
    pure (some content)
  | _ => pure none

/-- Reads the word for an operation. -/
def operationType : Reader Operation := do
  let token ← current
  let word ← name
  match [Operation.query, .mutation, .subscription].find? fun operation =>
      operation.word = word with
  | some operation => pure operation
  | none => failAt token.position (.unexpected token.kind)

/-- Reads what is given for a default, if anything is. -/
def defaultValue : Reader (Option Literal) := do
  if ← accept .equals then return some (← literal true) else pure none

/-- Reads a variable definition. -/
def variableDefinition : Reader VariableDefinition := do
  let _ ← description
  let word ← variableName
  expect .colon
  let type ← typeReference
  let default? ← defaultValue
  return ⟨word, type, default?, ← directives true⟩

/-- Reads the name of a fragment, which is any name but one. -/
def fragmentName : Reader Text := do
  if (← current).kind.content? = some (Text.ofString "on") then unexpected else name

/-- Reads a selection. -/
def selectionWith (fuel : Nat) : Reader Selection :=
  match fuel with
  | 0 => unexpected
  | fuel + 1 => do
    if ← accept .spread then
      let isConditional ← acceptKeyword "on"
      let token ← current
      match isConditional, token.kind with
      | false, .name _ =>
        let target ← fragmentName
        return .spread target (← directives false)
      | _, _ =>
        let condition ← if isConditional then pure (some (← name)) else pure none
        let applied ← directives false
        return .inline condition applied
          (← nested (many .openBrace (selectionWith fuel) .closeBrace))
    else
      let first ← name
      let (fieldAlias, fieldName) ←
        if ← accept .colon then pure (some first, ← name) else pure (none, first)
      let given ← arguments false
      let applied ← directives false
      let inner ←
        if ← peek .openBrace then
          nested (many .openBrace (selectionWith fuel) .closeBrace)
        else pure []
      return .field fieldAlias fieldName given applied inner

/-- Reads selections between braces. -/
def selections : Reader (List Selection) := do
  let fuel ← bound
  nested (many .openBrace (selectionWith fuel) .closeBrace)

/-- Reads an operation. -/
def operation : Reader Definition := do
  if ← peek .openBrace then return .operation .query [] [] (← selections)
  else
    let _ ← description
    let kind ← operationType
    match (← current).kind with
    | .name _ =>
      let _ ← name
    | _ => pure ()
    let definitions ← optionalMany .openParenthesis variableDefinition .closeParenthesis
    let applied ← directives false
    return .operation kind definitions applied (← selections)

/-- Reads a fragment. -/
def fragment : Reader Definition := do
  let _ ← description
  expectKeyword "fragment"
  let target ← fragmentName
  expectKeyword "on"
  let condition ← name
  let applied ← directives false
  return .fragment target condition applied (← selections)

/-- Reads which type serves an operation. -/
def operationTypeDefinition : Reader (Operation × Text) := do
  let kind ← operationType
  expect .colon
  return (kind, ← name)

/-- Reads the definition of an argument or an input field. -/
def inputValue : Reader InputValueDefinition := do
  let description ← description
  let valueName ← name
  expect .colon
  let type ← typeReference
  let default? ← defaultValue
  return ⟨description, valueName, type, default?, ← directives true⟩

/-- Reads the definitions of arguments, if there are any. -/
def argumentDefinitions : Reader (List InputValueDefinition) :=
  optionalMany .openParenthesis inputValue .closeParenthesis

/-- Reads the definition of a field. -/
def fieldDefinition : Reader FieldDefinition := do
  let description ← description
  let fieldName ← name
  let defined ← argumentDefinitions
  expect .colon
  let type ← typeReference
  return ⟨description, fieldName, defined, type, ← directives true⟩

/-- Reads the definitions of fields, if there are any. -/
def fieldDefinitions : Reader (List FieldDefinition) :=
  optionalMany .openBrace fieldDefinition .closeBrace

/-- Reads the interfaces that a type implements, if there are any. -/
def implementedInterfaces : Reader (List Text) := do
  if ← acceptKeyword "implements" then separated .ampersand name else pure []

/-- Reads the members of a union, if there are any. -/
def unionMembers : Reader (List Text) := do
  if ← accept .equals then separated .bar name else pure []

/-- Reads the name of an enum value, which is any name but three. -/
def enumValueName : Reader Text := do
  let token ← current
  let reserved : List Text := ["true", "false", "null"]
  match token.kind.content? with
  | some content =>
    if reserved.contains content then
      failAt token.position (.reservedEnumValue token.kind)
    else name
  | none => name

/-- Reads the definition of an enum value. -/
def enumValueDefinition : Reader EnumValueDefinition := do
  let description ← description
  let valueName ← enumValueName
  return ⟨description, valueName, ← directives true⟩

/-- Reads the definition of the schema. -/
def schemaDefinition : Reader Definition := do
  let description ← description
  expectKeyword "schema"
  let applied ← directives true
  return .schema ⟨description, applied,
    ← many .openBrace operationTypeDefinition .closeBrace⟩

/-- The keywords that definitions of types begin with. -/
def typeKeywords : List (Text × TypeKind) :=
  [("scalar", .scalar), ("type", .object), ("interface", .interface), ("union", .union),
    ("enum", .enum), ("input", .inputObject)]

/-- Reads what follows the keyword of a type: its name, its directives and its body. -/
def typeParts (kind : TypeKind) (description : Option Text) : Reader TypeDefinition := do
  let typeName ← name
  match kind with
  | .scalar => return ⟨description, typeName, ← directives true, .scalar⟩
  | .object =>
    let interfaces ← implementedInterfaces
    let applied ← directives true
    return ⟨description, typeName, applied, .object interfaces (← fieldDefinitions)⟩
  | .interface =>
    let interfaces ← implementedInterfaces
    let applied ← directives true
    return ⟨description, typeName, applied, .interface interfaces (← fieldDefinitions)⟩
  | .union =>
    let applied ← directives true
    return ⟨description, typeName, applied, .union (← unionMembers)⟩
  | .enum =>
    let applied ← directives true
    return ⟨description, typeName, applied,
      .enum (← optionalMany .openBrace enumValueDefinition .closeBrace)⟩
  | .inputObject =>
    let applied ← directives true
    return ⟨description, typeName, applied,
      .inputObject (← optionalMany .openBrace inputValue .closeBrace)⟩

/-- Reads the definition of a type. -/
def typeDefinition (kind : TypeKind) : Reader Definition := do
  let description ← description
  advance
  return .type (← typeParts kind description)

/-- Reads a location of a directive. -/
def directiveLocation : Reader Text := do
  let token ← current
  let location ← name
  if directiveLocations.contains location then pure location
  else failAt token.position (.unexpected token.kind)

/-- Reads the definition of a directive. -/
def directiveDefinition : Reader Definition := do
  let description ← description
  expectKeyword "directive"
  expect .at
  let directiveName ← name
  let defined ← argumentDefinitions
  let isRepeatable ← acceptKeyword "repeatable"
  expectKeyword "on"
  return .directive ⟨description, directiveName, defined, isRepeatable,
    ← separated .bar directiveLocation⟩

/-- Whether the extension of a type says nothing. -/
def isEmptyExtension (definition : TypeDefinition) : Bool :=
  definition.directives.isEmpty &&
    match definition.body with
    | .scalar => true
    | .object interfaces fields => interfaces.isEmpty && fields.isEmpty
    | .interface interfaces fields => interfaces.isEmpty && fields.isEmpty
    | .union members => members.isEmpty
    | .enum values => values.isEmpty
    | .inputObject fields => fields.isEmpty

/-- Reads an extension, of the schema or of a type. It has to say something. -/
def extension : Reader Definition := do
  let keyword ← lookAhead
  match keyword.kind with
  | .name word =>
    if word = "schema" then
      expectKeyword "extend"
      advance
      let applied ← directives true
      let operations ← optionalMany .openBrace operationTypeDefinition .closeBrace
      if applied.isEmpty && operations.isEmpty then unexpected
      else pure (.schemaExtension ⟨none, applied, operations⟩)
    else
      match typeKeywords.find? fun entry => entry.1 = word with
      | some (_, kind) =>
        expectKeyword "extend"
        advance
        let definition ← typeParts kind none
        if isEmptyExtension definition then unexpected else pure (.typeExtension definition)
      | none => failAt keyword.position (.unexpected keyword.kind)
  | other => failAt keyword.position (.unexpected other)

/-- Reads the definition that a keyword begins; a description may stand before it. -/
def keywordDefinition (isDescribed : Bool) (start : Token) (keyword : Token) (word : Text) :
    Reader Definition := do
  if word = "schema" then schemaDefinition
  else if word = "directive" then directiveDefinition
  else if word = "query" || word = "mutation" || word = "subscription" then operation
  else if word = "fragment" then fragment
  else
    match typeKeywords.find? fun entry => entry.1 = word with
    | some (_, kind) => typeDefinition kind
    | none =>
      if isDescribed then failAt start.position .descriptionOfExtension
      else if word = "extend" then extension
      else failAt keyword.position (.unexpected keyword.kind)

/-- Reads a definition. -/
def definition : Reader Definition := do
  if ← peek .openBrace then operation
  else
    let start ← current
    let isDescribed := isText start.kind
    let keyword ← if isDescribed then lookAhead else pure start
    match keyword.kind with
    | .mark .openBrace => failAt start.position .descriptionOfShorthand
    | .name word => keywordDefinition isDescribed start keyword word
    | other => failAt keyword.position (.unexpected other)

/-- Reads definitions up to the end of the document; those before are kept backwards. -/
def definitions (fuel : Nat) (known : List Definition) : Reader (List Definition) :=
  match fuel with
  | 0 => unexpected
  | fuel + 1 => do
    let next ← definition
    if (← current).kind = .endOfDocument then pure (next :: known).reverse
    else definitions fuel (next :: known)

end Reader

/-- Applies a reader to the tokens of a text. -/
def readWith {α : Type} (reader : Reader α) (source : Text) : Except ReadFault α :=
  let stream := TokenStream.ofText source
  match stream.tokens, stream.fault with
  | [], some fault => .error fault
  | tokens, fault =>
    let first := tokens.headD ⟨.endOfDocument, source.length⟩
    (reader.run ⟨first, tokens.drop 1, fault, 0⟩).map (·.1)

/-- The definitions that a document consists of. It has at least one. -/
def parse (source : Text) : Except ReadFault (List Definition) :=
  readWith (do Reader.definitions (← Reader.bound) []) source

/-- The value that a text is, with nothing behind it. Variables are admitted. -/
def parseLiteral (source : Text) : Except ReadFault Literal :=
  readWith (do
    let value ← Reader.literal false
    let token ← Reader.current
    if token.kind = .endOfDocument then pure value
    else Reader.failAt token.position (.expected "<EOF>" token.kind)) source

end SchemaOrder.Document
