import SchemaOrder.Failure
import SchemaOrder.Order.NameOrder
import SchemaOrder.Schema.Construction

/-!
# Sorting schemas

This module holds the sorted copy of a schema: every collection of named things in an
order of names. Sorting goes twice along the sorted types. The first pass makes a
replacement for every type, whose parts with references are still to be taken from a
table; the second pass fills the table, and links every reference to the replacement that
it finds in the index. Only then is the schema constructed of the replacements, so that
types may refer to each other in circles. Scalars and introspection types are not replaced.
-/

namespace SchemaOrder

/-- Why a schema cannot be sorted. -/
inductive SortFault where
  /-- A reference to a type that the index does not have. -/
  | unknownType (name : Text)
  /-- An entry of the index that is of no kind. -/
  | unexpectedKind (name : Text)
  /-- A replacement asks for a part that the table does not have. -/
  | absentPart (name : Text)
  /-- The copy would hold two type objects of one name. -/
  | repeatedType (name : Text)
deriving DecidableEq, Repr

namespace SortFault

/-- The words for a fault. -/
def message : SortFault → Text
  | .unknownType name =>
    "Type " ++ name.quoted ++ " is referenced but not present in the schema."
  | .unexpectedKind name => "Unexpected type: <GraphQLNamedType " ++ name.quoted ++ ">."
  | .absentPart name => name.quoted
  | .repeatedType name =>
    "Schema must contain uniquely named types but contains multiple types named '" ++ name ++
      "'."

/-- The kind of failure that a fault is. -/
def kind : SortFault → FailureKind
  | .unknownType _ => .unknownType
  | .unexpectedKind _ => .unexpectedKind
  | .absentPart _ => .missingMember
  | .repeatedType _ => .mismatch

end SortFault

namespace Sorter

open Schema

/-- The sorted parts of a type that hold references. -/
inductive SortedParts where
  | composite (interfaces : List Target) (fields : List LinkedField)
  | union (members : List Target)
  | inputObject (fields : List LinkedInput)
deriving Repr

/-- The table of sorted parts, by the names of the types. -/
abbrev PartTable := List (Text × SortedParts)

/-- The object that stands for a type in the sorted copy. Scalars stand for themselves. -/
def targetOf (type : NamedType) : Target :=
  if type.kind = .scalar then .inOriginal type.name else .inPlace type.name

/-- What a name leads to in the index of replacements. -/
def replaceName (index : List Target) (name : Text) : Except SortFault Target :=
  match Named.find? Target.name name index with
  | some target => .ok target
  | none => .error (.unknownType name)

/-- A reference, linked to what its name leads to in the index of replacements. -/
def replaceReference (index : List Target) : TypeReference → Except SortFault Link
  | .named name => (replaceName index name).map .direct
  | .list inner => (replaceReference index inner).map .list
  | .nonNull inner => (replaceReference index inner).map .nonNull

/-- A reference that may be absent, looked up in the index of replacements. -/
def replaceRoot (index : List Target) : Option Text → Except SortFault (Option Target)
  | none => .ok none
  | some name => (replaceName index name).map some

/-- Arguments or input fields sorted, with their references looked up. Whatever is not looked
up leads to what it leads to in the original. -/
def sortInputs (order : NameOrder) (index : List Target) (inputs : List InputValue) :
    Except SortFault (List LinkedInput) :=
  (order.sort InputValue.name inputs).mapM fun input => do
    return { input.linked .inOriginal with type := ← replaceReference index input.type }

/-- Fields sorted, with their arguments. -/
def sortFields (order : NameOrder) (index : List Target) (fields : List Field) :
    Except SortFault (List LinkedField) :=
  (order.sort Field.name fields).mapM fun field => do
    let type ← replaceReference index field.type
    let arguments ← sortInputs order index field.arguments
    pure { field.linked .inOriginal with type, arguments }

/-- References by name sorted and looked up. -/
def sortReferences (order : NameOrder) (index : List Target) (names : List Text) :
    Except SortFault (List Target) :=
  (order.sortNames names).mapM (replaceName index)

/-- The sorted parts of a type that hold references, if it has any. Introspection types
are left as they are. -/
def sortParts (order : NameOrder) (index : List Target) (type : NamedType) :
    Except SortFault (Option SortedParts) :=
  if isIntrospectionType type.name then .ok none
  else
    match type.body with
    | .object interfaces fields | .interface interfaces fields => do
      let fields ← sortFields order index fields
      let interfaces ← sortReferences order index interfaces
      pure (some (.composite interfaces fields))
    | .union members => do
      return some (.union (← sortReferences order index members))
    | .inputObject fields _ => do
      return some (.inputObject (← sortInputs order index fields))
    | _ => .ok none

/-- The table of the sorted parts of types. -/
def partTable (order : NameOrder) (index : List Target) (types : List NamedType) :
    Except SortFault PartTable := do
  let rows ← types.mapM fun type => do
    return (← sortParts order index type).map fun parts => (type.name, parts)
  pure (rows.filterMap id)

/-- The fields of an object or an interface in the table. -/
def deferredFields (table : PartTable) (name : Text) : Except SortFault (List LinkedField) :=
  match Named.find? Prod.fst name table with
  | some (_, .composite _ fields) => .ok fields
  | _ => .error (.absentPart name)

/-- The interfaces of an object or an interface in the table. -/
def deferredInterfaces (table : PartTable) (name : Text) : Except SortFault (List Target) :=
  match Named.find? Prod.fst name table with
  | some (_, .composite interfaces _) => .ok interfaces
  | _ => .error (.absentPart name)

/-- The members of a union in the table. -/
def deferredMembers (table : PartTable) (name : Text) : Except SortFault (List Target) :=
  match Named.find? Prod.fst name table with
  | some (_, .union members) => .ok members
  | _ => .error (.absentPart name)

/-- The fields of an input object in the table. -/
def deferredInputs (table : PartTable) (name : Text) : Except SortFault (List LinkedInput) :=
  match Named.find? Prod.fst name table with
  | some (_, .inputObject fields) => .ok fields
  | _ => .error (.absentPart name)

/-- The replacement of a type. Its parts with references are taken from the table. -/
def replacement (order : NameOrder) (table : PartTable) (type : NamedType) :
    TypeObject SortFault :=
  if isIntrospectionType type.name then .ofLibrary type
  else
    ⟨targetOf type, type.description,
      match type.body with
      | .scalar specifiedBy => .scalar specifiedBy
      | .object .. =>
        .object (deferredInterfaces table type.name) (deferredFields table type.name)
      | .interface .. =>
        .interface (deferredInterfaces table type.name) (deferredFields table type.name)
      | .union _ => .union (deferredMembers table type.name)
      | .enum values => .enum (order.sort EnumValue.name values)
      | .inputObject _ oneOf => .inputObject (deferredInputs table type.name) oneOf⟩

/-- A directive with its locations and arguments sorted. -/
def sortDirective (order : NameOrder) (index : List Target) (directive : Directive) :
    Except SortFault LinkedDirective := do
  let arguments ← sortInputs order index directive.arguments
  pure { directive.linked .inOriginal with
    locations := order.sortNames directive.locations
    arguments }

/-- The type of an entry of the index. -/
def typeOf : Entry → Except SortFault NamedType
  | .defined type => .ok type
  | .kindless name => .error (.unexpectedKind name)

/-- The types of a schema, sorted. -/
def sortedTypes (order : NameOrder) (schema : Schema) : Except SortFault (List NamedType) :=
  (order.sort Entry.name schema.index).mapM typeOf

/-- The draft of the sorted copy of a schema. A schema of which anything is known about
its validity is taken to be valid. -/
def sortedDraft (order : NameOrder) (schema : Schema) :
    Except SortFault (ObjectDraft SortFault) := do
  let types ← sortedTypes order schema
  let index := types.map targetOf
  let table ← partTable order index types
  let directives ← (order.sort Directive.name schema.directives).mapM
    (sortDirective order index)
  let query ← replaceRoot index schema.query
  let mutation ← replaceRoot index schema.mutation
  let subscription ← replaceRoot index schema.subscription
  pure {
    description := schema.description
    query, mutation, subscription, directives
    objects := types.map (replacement order table)
    originals := schema.types
    isTrusted := schema.validation.isSome }

end Sorter

namespace Schema

/-- The copy of a schema with every named collection sorted. -/
def sort (order : NameOrder) (schema : Schema) : Except SortFault Schema := do
  (← Sorter.sortedDraft order schema).construct .repeatedType

end Schema

end SchemaOrder
