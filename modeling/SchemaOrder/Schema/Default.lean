import SchemaOrder.Document.Printer
import SchemaOrder.Failure
import SchemaOrder.Schema.Basic

/-!
# Writing defaults

This module holds how the default of an argument or an input field is written: by its
type, so that a value of an enum is a name and the fields of an object stand in the
order of its type. Some values of scalar types that no document defines the values of
cannot be written.
-/

namespace SchemaOrder

open Document (Literal)

/-- Why a default cannot be written. -/
inductive DefaultFault where
  /-- A list, an object or an infinite number of a scalar type. -/
  | notWritable (value : Value)
  /-- An infinite number of the standard type of numbers with fractions. -/
  | notFinite (value : Binary64)
  /-- A value of a type that has none. -/
  | notInput (name : Text)
deriving Repr

namespace DefaultFault

/-- The words for a fault. -/
def message : DefaultFault → Text
  | .notWritable value => "Cannot convert value to AST: " ++ value.inspect ++ "."
  | .notFinite value => "Float cannot represent non numeric value: " ++ value.shortestText
  | .notInput name => "Unexpected input type: " ++ name ++ "."

/-- The kind of failure that a fault is. -/
def kind : DefaultFault → FailureKind
  | .notFinite _ => .language
  | _ => .mismatch

end DefaultFault

namespace Schema

/-- Whether a text is an integer without superfluous zeros; one line feed may follow. -/
def isIntegerText (text : Text) : Bool :=
  let line : Text := if text.endsWith "\n" then text.dropLast else text
  let magnitude := if line.startsWith "-" then line.drop 1 else line
  match magnitude with
  | [] => false
  | first :: rest =>
    if first = CodePoint.ofChar '0' then rest.isEmpty
    else first.isDigit && rest.all CodePoint.isDigit

/-- A value of a scalar type as it is written. -/
def scalarLiteral (type : Text) (value : Value) : Except DefaultFault (Option Literal) :=
  match value with
  | .boolean value => .ok (some (.boolean value))
  | .integer value => .ok (some (.integer (Text.ofInt value)))
  | .float number =>
    if number.isFinite then .ok (some (.float number.plainText))
    else if type = "Float" then .error (.notFinite number)
    else .error (.notWritable value)
  | .text content =>
    .ok (some (if type = "ID" && isIntegerText content then .integer content
      else .text content false))
  | .null | .unbound => .ok none
  | .list _ | .object _ => .error (.notWritable value)

/-- A value of a type that is no input object, as it is written. -/
def leafLiteral (schema : Schema) (type : Text) (value : Value) :
    Except DefaultFault (Option Literal) :=
  match schema.kind? type, value with
  | some .scalar, _ => scalarLiteral type value
  | some .enum, .text name => .ok (some (.enumValue name))
  | some .inputObject, _ => .ok none
  | some .enum, _ => .ok none
  | _, _ => .error (.notInput type)

/-- The fields that the input object with a name has. -/
def inputFields (schema : Schema) (type : Text) : List InputValue :=
  match (schema.type? type).map NamedType.body with
  | some (.inputObject fields _) => fields
  | _ => []

/-- A field of an object that is to be written when its type is known. -/
structure HeldField where
  name : Text
  write : TypeReference → Except DefaultFault (Option Literal)

/-- The fields of an object in the order of its type, as they are written. -/
def fieldLiterals (held : List HeldField) (known : List InputValue) :
    Except DefaultFault (List (Text × Literal)) := do
  let literals ← known.mapM fun field =>
    match Named.find? HeldField.name field.name held with
    | none => .ok none
    | some given => do
      return (← given.write field.type).map fun literal => (field.name, literal)
  pure (literals.filterMap id)

mutual

/-- A value as it is written, if it is. Where null is refused, null is not written. -/
def defaultLiteral (schema : Schema) : Value → TypeReference →
    Except DefaultFault (Option Literal)
  | .null, type => .ok (if type.isNonNull then none else some .null)
  | .unbound, _ => .ok none
  | .list items, type =>
    match type.nullable with
    | .list item => return some (.list (← itemLiterals schema items item))
    | other => schema.leafLiteral other.base (.list items)
  | .object fields, type =>
    match schema.kind? type.base with
    | some .inputObject =>
      return some (.object
        (← fieldLiterals (heldFields schema fields) (schema.inputFields type.base)))
    | _ => schema.leafLiteral type.base (.object fields)
  | value, type => schema.leafLiteral type.base value

/-- The items of a list as they are written. -/
def itemLiterals (schema : Schema) : List Value → TypeReference →
    Except DefaultFault (List Literal)
  | [], _ => .ok []
  | item :: rest, type => do
    let literal? ← defaultLiteral schema item type
    let literals ← itemLiterals schema rest type
    pure (literal?.toList ++ literals)

/-- The fields of an object, to be written when their types are known. -/
def heldFields (schema : Schema) : List (Text × Value) → List HeldField
  | [] => []
  | (name, value) :: rest => ⟨name, defaultLiteral schema value⟩ :: heldFields schema rest

end

/-- The text of the default of an argument or an input field, if it has one. -/
def defaultText (schema : Schema) (input : InputValue) : Except DefaultFault (Option Text) :=
  match input.default? with
  | none => .ok none
  | some value => return (← schema.defaultLiteral value input.type).map Literal.write

end Schema

end SchemaOrder
