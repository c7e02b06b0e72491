import SchemaOrder.Schema.Default

/-!
# Writing schemas

This module holds how a schema is written as a document: its directives and types in
their own order, the standard ones left out. The schema itself is written only where it
has a description or where an operation is served by a type without the usual name.
-/

namespace SchemaOrder.Schema

/-- Why a schema cannot be written. -/
inductive PrintFault where
  | default (fault : DefaultFault)
  /-- An entry of the index that is of no kind. -/
  | unexpectedKind (name : Text)
deriving Repr

namespace PrintFault

/-- The words for a fault. -/
def message : PrintFault → Text
  | .default fault => fault.message
  | .unexpectedKind name => "Unexpected type: " ++ name ++ "."

/-- The kind of failure that a fault is. -/
def kind : PrintFault → FailureKind
  | .default fault => fault.kind
  | .unexpectedKind _ => .mismatch

end PrintFault

/-- A text on lines that are all indented. -/
def indentLines (indentation text : Text) : Text :=
  text.replaceAll "\n" ("\n" ++ indentation)

/-- A description and the end of its line, if there is one. Inside a block an empty line
stands before every description but the first. -/
def writeDescription (description : Option Text) (indentation : Text) (isFirst : Bool) :
    Text :=
  match description with
  | none => []
  | some content =>
    let written :=
      if Document.fitsBlock content then Document.blockText content
      else Document.writeText content
    let start : Text := if indentation.isEmpty || isFirst then [] else "\n"
    start ++ indentation ++ indentLines indentation written ++ "\n"

/-- Parts between braces, each with lines of its own, if there are any. -/
def writeBlock (parts : List Text) : Text :=
  if parts.isEmpty then []
  else " \x7b\n" ++ Text.join "\n" parts ++ "\n\x7d"

/-- The mark of what should not be used any more. -/
def writeDeprecation (deprecation : Option Text) : Text :=
  match deprecation with
  | none => []
  | some reason =>
    if reason = defaultDeprecation then " @deprecated"
    else " @deprecated(reason: " ++ Document.writeText reason ++ ")"

/-- The parts of a block, each written with whether it is the first one. -/
def writeParts {α : Type} (write : Bool → α → Except DefaultFault Text) (parts : List α) :
    Except DefaultFault (List Text) :=
  parts.zipIdx.mapM fun (part, index) => write (index = 0) part

/-- An argument or an input field. -/
def writeInput (schema : Schema) (input : InputValue) : Except DefaultFault Text := do
  let written ← schema.defaultText input
  let default : Text := match written with
    | some text => " = " ++ text
    | none => []
  pure (input.name ++ ": " ++ input.type.text ++ default ++ writeDeprecation input.deprecation)

/-- An argument or an input field on a line of its own, with its description. -/
def writeInputLine (schema : Schema) (indentation : Text) (isFirst : Bool)
    (input : InputValue) : Except DefaultFault Text := do
  let written ← schema.writeInput input
  pure (writeDescription input.description indentation isFirst ++ indentation ++ written)

/-- Arguments: on one line where none has a description with something in it, and otherwise
on lines of their own. -/
def writeArguments (schema : Schema) (indentation : Text) (arguments : List InputValue) :
    Except DefaultFault Text := do
  if arguments.isEmpty then pure []
  else if arguments.all fun argument => (argument.description.getD []).isEmpty then
    return "(" ++ Text.join ", " (← arguments.mapM schema.writeInput) ++ ")"
  else
    let lines ← writeParts (schema.writeInputLine ("  " ++ indentation)) arguments
    pure ("(\n" ++ Text.join "\n" lines ++ "\n" ++ indentation ++ ")")

/-- A field, with its description. -/
def writeField (schema : Schema) (isFirst : Bool) (field : Field) :
    Except DefaultFault Text := do
  let arguments ← schema.writeArguments "  " field.arguments
  pure (writeDescription field.description "  " isFirst ++ "  " ++ field.name ++ arguments ++
    ": " ++ field.type.text ++ writeDeprecation field.deprecation)

/-- A value of an enum, with its description. -/
def writeEnumValue (isFirst : Bool) (value : EnumValue) : Text :=
  writeDescription value.description "  " isFirst ++ "  " ++ value.name ++
    writeDeprecation value.deprecation

/-- The interfaces that a type implements. -/
def writeInterfaces (interfaces : List Text) : Text :=
  if interfaces.isEmpty then []
  else " implements " ++ Text.join " & " interfaces

/-- A type, without its description. -/
def writeBody (schema : Schema) (type : NamedType) : Except DefaultFault Text := do
  match type.body with
  | .scalar specifiedBy =>
    let reference : Text := match specifiedBy with
      | some address => " @specifiedBy(url: " ++ Document.writeText address ++ ")"
      | none => []
    pure ("scalar " ++ type.name ++ reference)
  | .object interfaces fields =>
    let parts ← writeParts schema.writeField fields
    pure ("type " ++ type.name ++ writeInterfaces interfaces ++ writeBlock parts)
  | .interface interfaces fields =>
    let parts ← writeParts schema.writeField fields
    pure ("interface " ++ type.name ++ writeInterfaces interfaces ++ writeBlock parts)
  | .union members =>
    let parts : Text := if members.isEmpty then [] else " = " ++ Text.join " | " members
    pure ("union " ++ type.name ++ parts)
  | .enum values =>
    let parts ← writeParts (fun isFirst value => .ok (writeEnumValue isFirst value)) values
    pure ("enum " ++ type.name ++ writeBlock parts)
  | .inputObject fields oneOf =>
    let parts ← writeParts (schema.writeInputLine "  ") fields
    let mark : Text := if oneOf.isFalsy then [] else " @oneOf"
    pure ("input " ++ type.name ++ mark ++ writeBlock parts)

/-- A type, with its description. -/
def writeType (schema : Schema) (type : NamedType) : Except DefaultFault Text := do
  return writeDescription type.description [] true ++ (← schema.writeBody type)

/-- A directive, with its description. -/
def writeDirective (schema : Schema) (directive : Directive) : Except DefaultFault Text := do
  let arguments ← schema.writeArguments [] directive.arguments
  let repeatable : Text := if directive.isRepeatable then " repeatable" else []
  pure (writeDescription directive.description [] true ++ "directive @" ++ directive.name ++
    arguments ++ writeDeprecation directive.deprecation ++ repeatable ++ " on " ++
    Text.join " | " directive.locations)

/-- The usual names of the types that serve operations, with the words for these. -/
def usualRoots : List (Text × Text) :=
  [("query", "Query"), ("mutation", "Mutation"), ("subscription", "Subscription")]

/-- Whether every operation that is served is served by the type with the usual name. -/
def hasUsualRoots (schema : Schema) : Bool :=
  (schema.roots.zip usualRoots).all fun (root, usual) =>
    match root with
    | some name => name = usual.2
    | none => true

/-- The schema itself, where it is written. -/
def writeSchema (schema : Schema) : Option Text :=
  if schema.description.isNone && schema.hasUsualRoots then none
  else
    let lines := (schema.roots.zip usualRoots).filterMap fun (root, usual) =>
      root.map fun name => "  " ++ usual.1 ++ ": " ++ name
    some (writeDescription schema.description [] true ++ "schema \x7b\n" ++
      Text.join "\n" lines ++ "\n\x7d")

/-- An entry of the index. -/
def writeEntry (schema : Schema) : Entry → Except PrintFault Text
  | .defined type => (schema.writeType type).mapError .default
  | .kindless name => .error (.unexpectedKind name)

/-- A schema as a document, without an end of the last line. -/
def print (schema : Schema) : Except PrintFault Text := do
  let directives ← (schema.directives.filter fun directive =>
    !isStandardDirective directive.name).mapM fun directive =>
      (schema.writeDirective directive).mapError .default
  let types ← (schema.index.filter fun entry => !isStandardType entry.name).mapM
    schema.writeEntry
  pure (Text.join "\n\n" (schema.writeSchema.toList ++ directives ++ types))

/-- The text of a schema as a document. -/
def toDocument (schema : Schema) : Except PrintFault Text := do
  return (← schema.print) ++ Text.ofString "\n"

end SchemaOrder.Schema
