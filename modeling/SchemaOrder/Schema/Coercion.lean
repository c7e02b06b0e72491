import SchemaOrder.Document.Printer
import SchemaOrder.Failure
import SchemaOrder.Json.Reader
import SchemaOrder.Schema.Basic

/-!
# Coercion

This module holds how a written value becomes a value of a type, and how a value of a
type is written. A value that does not fit its type becomes nothing; it is no fault. A
value is written by its type, so that what was coerced and written is not always what
was read: a single value in the place of a list has become a list, and fields of an
object that have defaults are there.
-/

namespace SchemaOrder

open Document (Literal)

/-- What coercion has to know of a type. -/
inductive InputShape (ε : Type) where
  | scalar
  | enum (values : List Text)
  | inputObject (fields : Except ε (List Schema.InputValue)) (isOneOf : Bool)
  /-- A type that no value is written for. -/
  | output

/-- What coercion has to know of a schema: its types by name, and what is to be said of a
type that no value can be written for. -/
structure InputTypes (ε : Type) where
  shape : Text → InputShape ε
  notInput : Text → ε

namespace Coercion

/-- The number that digits with a sign spell, unless they are too many. -/
def integerValue? (digits : Text) : Option Int :=
  let isNegative := digits.head? = some (CodePoint.ofChar '-')
  let magnitude := if isNegative then digits.drop 1 else digits
  if Json.integerWidthBound < magnitude.length then none
  else
    let size : Int := Text.digitsValue magnitude
    some (if isNegative then -size else size)

/-- The number that the digits of a number with a fraction or an exponent spell. -/
def floatValue (digits : Text) : Binary64 :=
  match Json.numberParts? digits with
  | some parts =>
    let fraction := parts.fraction.getD []
    Binary64.ofDecimal parts.negative (Text.digitsValue (parts.whole ++ fraction))
      (parts.exponent.getD 0 - fraction.length)
  | none => .nan

mutual

/-- The value that is written where no type says what may be written. An integer with too
many digits is no number. -/
def untyped : Literal → Value
  | .variable _ => .unbound
  | .integer digits =>
    match integerValue? digits with
    | some number => .integer number
    | none => .float .nan
  | .float digits => .float (floatValue digits)
  | .text content _ => .text content
  | .boolean value => .boolean value
  | .null => .null
  | .enumValue name => .text name
  | .list items => .list (untypedItems items)
  | .object fields => .object (Named.ofList Prod.fst (untypedFields fields))

/-- The values of the items of a list. -/
def untypedItems : List Literal → List Value
  | [] => []
  | item :: rest => untyped item :: untypedItems rest

/-- The values of the fields of an object. -/
def untypedFields : List (Text × Literal) → List (Text × Value)
  | [] => []
  | (name, literal) :: rest => (name, untyped literal) :: untypedFields rest

end

/-- Whether a number is one of 32 bits. -/
def isWord (number : Int) : Bool :=
  -2147483648 ≤ number && number ≤ 2147483647

/-- The value of a scalar type. The standard ones admit their own kind of literal only,
save that an integer is a float and an identifier, too. -/
def scalarValue (name : Text) (literal : Literal) : Option Value :=
  if name = "Int" then
    match literal with
    | .integer digits => ((integerValue? digits).filter isWord).map .integer
    | _ => none
  else if name = "Float" then
    match literal with
    | .integer digits | .float digits => some (.float (floatValue digits))
    | _ => none
  else if name = "String" then
    match literal with
    | .text content _ => some (.text content)
    | _ => none
  else if name = "Boolean" then
    match literal with
    | .boolean value => some (.boolean value)
    | _ => none
  else if name = "ID" then
    match literal with
    | .text content _ => some (.text content)
    | .integer digits => some (.text digits)
    | _ => none
  else
    match untyped literal with
    | .unbound => none
    | value => some value

/-- The value of a type that is neither a list nor an input object. -/
def leafValue {ε : Type} (types : InputTypes ε) (name : Text) (literal : Literal) :
    Except ε (Option Value) :=
  match types.shape name with
  | .scalar => .ok (scalarValue name literal)
  | .enum values =>
    match literal with
    | .enumValue value => .ok (if values.contains value then some (.text value) else none)
    | _ => .ok none
  | .inputObject .. => .ok none
  | .output => .error (types.notInput name)

/-- How many lists are around the name in a reference. -/
def listDepth : TypeReference → Nat
  | .named _ => 0
  | .list inner => listDepth inner + 1
  | .nonNull inner => listDepth inner

/-- A value as the only item of lists within lists. -/
def wrap (depth : Nat) (value : Value) : Value :=
  match depth with
  | 0 => value
  | depth + 1 => .list [wrap depth value]

/-- A field of an object that was written: whether it is a variable, and what it becomes
when its type is known. -/
structure WrittenField (ε : Type) where
  name : Text
  isVariable : Bool
  coerce : TypeReference → Except ε (Option Value)

/-- The fields of an object: those that were written, the others with their defaults. Of
a field that was written twice the last one counts, and one that is a variable counts as
not written. A field that refuses null has to be there. -/
def objectFields {ε : Type} (written : List (WrittenField ε)) :
    List Schema.InputValue → Except ε (Option (List (Text × Value)))
  | [] => .ok (some [])
  | field :: rest => do
    let last := written.reverse.find? fun given => given.name = field.name
    let own : Option (Option Value) ←
      match last.filter fun given => !given.isVariable with
      | some given => (given.coerce field.type).map fun value? => value?.map some
      | none =>
        match field.default? with
        | some value => pure (some (some value))
        | none => pure (if field.type.isNonNull then none else some none)
    match own with
    | none => pure none
    | some value? =>
      let others ← objectFields written rest
      pure (others.map fun fields =>
        match value? with
        | some value => (field.name, value) :: fields
        | none => fields)

/-- Whether the fields are those of an object that has to have exactly one. -/
def isOneField (fields : List (Text × Value)) : Bool :=
  match fields with
  | [(_, .null)] => false
  | [_] => true
  | _ => false

mutual

/-- The value of a type that is written; `none` where what is written does not fit. -/
def coerce {ε : Type} (types : InputTypes ε) : Literal → TypeReference →
    Except ε (Option Value)
  | .variable _, _ => .ok none
  | .null, type => .ok (if type.isNonNull then none else some .null)
  | .list items, type =>
    match type.nullable with
    | .list item => (coerceItems types items item).map fun values => values.map .list
    | other => leafValue types other.base (.list items)
  | .object fields, type =>
    match types.shape type.base with
    | .inputObject known isOneOf => do
      let values ← objectFields (writtenFields types fields) (← known)
      let accepted := values.filter fun values => !isOneOf || isOneField values
      pure (accepted.map fun values => wrap (listDepth type) (.object values))
    | _ =>
      (leafValue types type.base (.object fields)).map fun value =>
        value.map (wrap (listDepth type))
  | literal, type =>
    (leafValue types type.base literal).map fun value => value.map (wrap (listDepth type))

/-- The values of the items of a list. A variable counts as null. -/
def coerceItems {ε : Type} (types : InputTypes ε) : List Literal → TypeReference →
    Except ε (Option (List Value))
  | [], _ => .ok (some [])
  | item :: rest, type => do
    let value ←
      if item.isVariable then
        pure (if type.isNonNull then none else some .null)
      else coerce types item type
    match value with
    | none => pure none
    | some value => return (← coerceItems types rest type).map (value :: ·)

/-- The fields of an object, to be coerced when their types are known. -/
def writtenFields {ε : Type} (types : InputTypes ε) :
    List (Text × Literal) → List (WrittenField ε)
  | [] => []
  | (name, literal) :: rest =>
    ⟨name, literal.isVariable, coerce types literal⟩ :: writtenFields types rest

end

end Coercion

end SchemaOrder
