import SchemaOrder.Order.Sort
import SchemaOrder.Proofs.Collections

/-!
# Sorting in stages

`Schema.sort` says what the sorted copy of a schema is. This module holds the same run as it goes on
at a desk, step by step: every sorter has a number and a table of its own; a part of a type may be
promised by a sorter, and then the type does not have it until somebody reads it and it is asked
for; what was asked for once is kept. A journal says in which order sorters fill their tables,
construct schemas of their replacements, and are asked for parts. A sorted copy has the parts that
its sorter promised, so that the schema that is sorted may itself be a sorted copy. Tables hold
links to replacements, and what is read of them are references by name: that no schema holds two
types of one name is left to `Schema.sort`, to which every run comes down in the end.
-/

namespace SchemaOrder

open Schema

namespace Sorter

/-- The collections of a type that hold references, as the rows of a table name them. -/
inductive Collection where
  | fields
  | interfaces
  | types
deriving DecidableEq, Repr

/-- The collections that sorted parts are. -/
def SortedParts.collections : SortedParts → List Collection
  | .composite .. => [.fields, .interfaces]
  | .union _ => [.types]
  | .inputObject _ => [.fields]

/-- The objects that sorted parts lead to. -/
def SortedParts.targets : SortedParts → List Target
  | .composite interfaces fields => interfaces ++ fieldTargets fields
  | .union members => members
  | .inputObject fields => inputTargets fields

end Sorter

namespace Staged

open Sorter

/-- A part of a type: it is there, or a sorter has promised it. -/
inductive Part (α : Type) where
  | present (value : α)
  | promised (sorter : Nat)
deriving Repr

/-- The collection that a part is, if a certain sorter has promised it. -/
def Part.promisedBy {α : Type} (sorter : Nat) (collection : Collection) : Part α → List Collection
  | .present _ => []
  | .promised other => if other = sorter then [collection] else []

/-- What makes a type, by kind, with parts that may be promised. -/
inductive LiveBody where
  | scalar (specifiedBy : Option Text)
  | object (interfaces : Part (List Text)) (fields : Part (List Field))
  | interface (interfaces : Part (List Text)) (fields : Part (List Field))
  | union (members : Part (List Text))
  | enum (values : List EnumValue)
  | inputObject (fields : Part (List InputValue)) (oneOf : Json)
deriving Repr

/-- A type whose parts may be promised. -/
structure LiveType where
  name : Text
  description : Option Text
  body : LiveBody
deriving Repr

/-- The type with all parts there. -/
def LiveType.ofType (type : NamedType) : LiveType :=
  ⟨type.name, type.description,
    match type.body with
    | .scalar specifiedBy => .scalar specifiedBy
    | .object interfaces fields => .object (.present interfaces) (.present fields)
    | .interface interfaces fields => .interface (.present interfaces) (.present fields)
    | .union members => .union (.present members)
    | .enum values => .enum values
    | .inputObject fields oneOf => .inputObject (.present fields) oneOf⟩

/-- Whether a type is a scalar. -/
def LiveType.isScalar (type : LiveType) : Bool :=
  match type.body with
  | .scalar _ => true
  | _ => false

/-- The object that a replacement is: a scalar is an original, other types take the place of one. -/
def LiveType.target (type : LiveType) : Target :=
  if type.isScalar then .inOriginal type.name else .inPlace type.name

/-- An entry of the index of types. -/
inductive LiveEntry where
  | defined (type : LiveType)
  | kindless (name : Text)
deriving Repr

/-- The name of an entry. -/
def LiveEntry.name : LiveEntry → Text
  | .defined type => type.name
  | .kindless name => name

/-- The type of an entry. -/
def LiveEntry.type? : LiveEntry → Option LiveType
  | .defined type => some type
  | .kindless _ => none

/-- The entry with all parts there. -/
def LiveEntry.ofEntry : Entry → LiveEntry
  | .defined type => .defined (.ofType type)
  | .kindless name => .kindless name

/-- A schema whose types may have parts that are promised. -/
structure LiveSchema where
  description : Option Text
  query : Option Text
  mutation : Option Text
  subscription : Option Text
  directives : List Directive
  types : List LiveType
  index : List LiveEntry
  validation : Option (List Text)
deriving Repr

/-- The schema with all parts there. -/
def LiveSchema.ofSchema (schema : Schema) : LiveSchema where
  description := schema.description
  query := schema.query
  mutation := schema.mutation
  subscription := schema.subscription
  directives := schema.directives
  types := schema.types.map .ofType
  index := schema.index.map .ofEntry
  validation := schema.validation

/-- What happens while sorters run. -/
inductive Event where
  /-- A sorter puts the sorted parts of a type into its table. -/
  | fills (sorter : Nat) (type : Text)
  /-- A schema is constructed: a sorter hands out its replacements, and has filled this table. -/
  | constructs (sorter : Nat) (table : PartTable) (replacements : List LiveType)
  /-- A sorter is asked for a part of a replacement, and its table has it. -/
  | asks (sorter : Nat) (type : Text) (collection : Collection)
  /-- A sorter is asked for a part of a replacement, and its table does not have it. -/
  | misses (sorter : Nat) (type : Text) (collection : Collection)

/-- What sorters share: how many there were, the table of each, the parts that were asked for and
are kept since, and the journal. -/
structure Desk where
  sorters : Nat
  tables : Nat → PartTable
  kept : List (Nat × Text × Collection)
  journal : List Event

/-- The desk before the first sorter. -/
def Desk.initial : Desk :=
  ⟨0, fun _ => [], [], []⟩

/-- A run at the desk. -/
abbrev Run (α : Type) :=
  ExceptT SortFault (StateM Desk) α

variable {α : Type}

/-- How a run ends that starts with a desk, and the desk that it leaves. -/
def Run.on (run : Run α) (desk : Desk) : Except SortFault α × Desk :=
  (ExceptT.run run).run desk

/-- A computation without regard to the desk. -/
def Run.ofExcept (outcome : Except SortFault α) : Run α :=
  ExceptT.mk (pure outcome)

/-- Writes an event into the journal. -/
def note (event : Event) : Run Unit :=
  modify fun desk => { desk with journal := desk.journal ++ [event] }

/-- A kind of part: the collection it is, and how it is taken from a table. -/
structure Slot (α : Type) where
  collection : Collection
  take : PartTable → Text → Except SortFault α
  /-- What is taken stands in the row of the type. -/
  inRow : ∀ {table type value}, take table type = .ok value →
    ∃ parts, (type, parts) ∈ table ∧ collection ∈ parts.collections

namespace Slot

/-- A row that is found is a row of the table. -/
theorem mem_of_find? {table : PartTable} {type name : Text} {parts : SortedParts}
    (found : Named.find? Prod.fst type table = some (name, parts)) : (type, parts) ∈ table := by
  obtain ⟨mem, rfl⟩ := Named.of_find?_eq_some found
  exact mem

/-- The fields of objects and interfaces. -/
def fields : Slot (List Field) where
  collection := .fields
  take table type := (deferredFields table type).map (List.map LinkedField.unlinked)
  inRow taken := by
    unfold deferredFields at taken
    split at taken
    · next found => exact ⟨_, mem_of_find? found, by simp [SortedParts.collections]⟩
    · cases taken

/-- The interfaces of objects and interfaces. -/
def interfaces : Slot (List Text) where
  collection := .interfaces
  take table type := (deferredInterfaces table type).map (List.map Target.name)
  inRow taken := by
    unfold deferredInterfaces at taken
    split at taken
    · next found => exact ⟨_, mem_of_find? found, by simp [SortedParts.collections]⟩
    · cases taken

/-- The members of unions. -/
def members : Slot (List Text) where
  collection := .types
  take table type := (deferredMembers table type).map (List.map Target.name)
  inRow taken := by
    unfold deferredMembers at taken
    split at taken
    · next found => exact ⟨_, mem_of_find? found, by simp [SortedParts.collections]⟩
    · cases taken

/-- The fields of input objects. -/
def inputs : Slot (List InputValue) where
  collection := .fields
  take table type := (deferredInputs table type).map (List.map LinkedInput.unlinked)
  inRow taken := by
    unfold deferredInputs at taken
    split at taken
    · next found => exact ⟨_, mem_of_find? found, by simp [SortedParts.collections]⟩
    · cases taken

/-- Asks a sorter for a part of a type, which keeps the part from then on. -/
def ask (slot : Slot α) (sorter : Nat) (type : Text) : Run α := do
  match slot.take ((← get).tables sorter) type with
  | .ok value =>
    note (.asks sorter type slot.collection)
    modify fun desk => { desk with kept := (sorter, type, slot.collection) :: desk.kept }
    pure value
  | .error fault =>
    note (.misses sorter type slot.collection)
    throw fault

/-- Reads a part of a type. A sorter is asked for what it has promised, unless this was done before
and the part is kept. -/
def read (slot : Slot α) (type : Text) : Part α → Run α
  | .present value => pure value
  | .promised sorter => do
    let desk ← get
    if (sorter, type, slot.collection) ∈ desk.kept then
      Run.ofExcept (slot.take (desk.tables sorter) type)
    else slot.ask sorter type

end Slot

/-- The body in which a sorter promises all parts with references. -/
def LiveBody.promised (order : NameOrder) (sorter : Nat) : LiveBody → LiveBody
  | .scalar specifiedBy => .scalar specifiedBy
  | .object _ _ => .object (.promised sorter) (.promised sorter)
  | .interface _ _ => .interface (.promised sorter) (.promised sorter)
  | .union _ => .union (.promised sorter)
  | .enum values => .enum (order.sort EnumValue.name values)
  | .inputObject _ oneOf => .inputObject (.promised sorter) oneOf

namespace LiveType

/-- Reads all parts of a type, which is what making another type of it begins with. -/
def readParts (type : LiveType) : Run Unit :=
  match type.body with
  | .object interfaces fields | .interface interfaces fields => do
    let _ ← Slot.fields.read type.name fields
    let _ ← Slot.interfaces.read type.name interfaces
  | .union members => do
    let _ ← Slot.members.read type.name members
  | .inputObject fields _ => do
    let _ ← Slot.inputs.read type.name fields
  | .scalar _ | .enum _ => pure ()

/-- The sorted parts of a type that hold references, if it has any. Introspection types are left as
they are. -/
def sortParts (order : NameOrder) (index : List Target) (type : LiveType) :
    Run (Option SortedParts) :=
  if isIntrospectionType type.name then pure none
  else
    match type.body with
    | .object interfaces fields | .interface interfaces fields => do
      let fields ← Run.ofExcept (sortFields order index (← Slot.fields.read type.name fields))
      let interfaces ← Run.ofExcept
        (sortReferences order index (← Slot.interfaces.read type.name interfaces))
      pure (some (.composite interfaces fields))
    | .union members => do
      let members ← Slot.members.read type.name members
      return some (.union (← Run.ofExcept (sortReferences order index members)))
    | .inputObject fields _ => do
      let fields ← Slot.inputs.read type.name fields
      return some (.inputObject (← Run.ofExcept (sortInputs order index fields)))
    | .scalar _ | .enum _ => pure none

/-- The names that a type leads to, in the stages in which its parts are read. -/
def stages (type : LiveType) : List (Run (List Text)) :=
  match type.body with
  | .object interfaces fields | .interface interfaces fields =>
    [Slot.interfaces.read type.name interfaces,
      TypeDraft.fieldReferences <$> Slot.fields.read type.name fields]
  | .union members => [Slot.members.read type.name members]
  | .inputObject fields _ =>
    [(fun fields => fields.map fun field => field.type.base) <$> Slot.inputs.read type.name fields]
  | .scalar _ | .enum _ => []

/-- The collections of a type that a sorter has promised. -/
def promisedBy (sorter : Nat) (type : LiveType) : List Collection :=
  match type.body with
  | .object interfaces fields | .interface interfaces fields =>
    fields.promisedBy sorter .fields ++ interfaces.promisedBy sorter .interfaces
  | .union members => members.promisedBy sorter .types
  | .inputObject fields _ => fields.promisedBy sorter .fields
  | .scalar _ | .enum _ => []

/-- What a sorter has promised a type: its collections, as the row of the type should have them. -/
def promise? (sorter : Nat) (type : LiveType) : Option (Text × List Collection) :=
  if type.promisedBy sorter = [] then none else some (type.name, type.promisedBy sorter)

end LiveType

/-- The first pass: the replacement of an entry of the index. -/
def allocate (order : NameOrder) (sorter : Nat) : LiveEntry → Run LiveType
  | .kindless name => throw (.unexpectedKind name)
  | .defined type =>
    if type.isScalar || isIntrospectionType type.name then pure type
    else do
      type.readParts
      pure { type with body := type.body.promised order sorter }

/-- The second pass: the sorted parts of a type are put into the table. -/
def fill (order : NameOrder) (index : List Target) (sorter : Nat) (type : LiveType) : Run Unit := do
  match ← type.sortParts order index with
  | none => pure ()
  | some parts =>
    modify fun desk => { desk with
      tables := Function.update desk.tables sorter
        (Named.insert Prod.fst (type.name, parts) (desk.tables sorter)) }
    note (.fills sorter type.name)

/-- The types collected so far, the last one first, and the names that are collected or will be. -/
structure LiveCollected where
  known : List Text
  collected : List LiveType

namespace LiveCollected

/-- Collects a type and what it leads to. -/
def visit (fuel : Nat) (find : Text → Option LiveType) (type : LiveType)
    (state : LiveCollected) : Run LiveCollected :=
  match fuel with
  | 0 => pure state
  | fuel + 1 =>
    let entered : LiveCollected := ⟨type.name :: state.known, type :: state.collected⟩
    type.stages.foldlM (fun state stage => do
      let names ← stage
      names.foldlM (fun state name =>
        if state.known.contains name then pure state
        else
          match find name with
          | some next => visit fuel find next state
          | none => pure state) state) entered

/-- Collects the type with a name, if it is not among the known ones. -/
def visitName (fuel : Nat) (find : Text → Option LiveType) (state : LiveCollected) (name : Text) :
    Run LiveCollected :=
  if state.known.contains name then pure state
  else
    match find name with
    | some type => visit fuel find type state
    | none => pure state

end LiveCollected

/-- A schema whose types are still to be collected. -/
structure LiveDraft where
  description : Option Text
  query : Option Text
  mutation : Option Text
  subscription : Option Text
  directives : List Directive
  types : List LiveType
  isTrusted : Bool

namespace LiveDraft

/-- The type that a name leads to: one of the draft, or a standard one. -/
def find? (draft : LiveDraft) (name : Text) : Option LiveType :=
  match draft.types.find? fun type => type.name = name with
  | some type => some type
  | none => (Standard.type? name).map .ofType

/-- The names that the schema itself leads to. -/
def references (draft : LiveDraft) : List Text :=
  [draft.query, draft.mutation, draft.subscription].filterMap id ++
    draft.directives.flatMap (fun directive =>
      directive.arguments.map fun argument => argument.type.base) ++
    [Text.ofString "__Schema"]

/-- The types of a draft and all that they lead to, in their order. -/
def collect (draft : LiveDraft) : Run (List LiveType) := do
  let fuel := draft.types.length + Standard.types.length + 1
  let listed ← draft.types.foldlM
    (fun state type => LiveCollected.visit fuel draft.find? type state)
    ⟨draft.types.map LiveType.name, []⟩
  let all ← draft.references.foldlM (LiveCollected.visitName fuel draft.find?) listed
  pure all.collected.reverse

/-- The schema that a draft becomes when these types are collected. They keep their promised
parts. -/
def withTypes (draft : LiveDraft) (types : List LiveType) : LiveSchema where
  description := draft.description
  query := draft.query
  mutation := draft.mutation
  subscription := draft.subscription
  directives := draft.directives
  types := types
  index := types.map .defined
  validation := if draft.isTrusted then some [] else none

/-- The schema that a draft becomes. -/
def assemble (draft : LiveDraft) : Run LiveSchema :=
  draft.withTypes <$> draft.collect

end LiveDraft

namespace LiveSchema

/-- A new sorter with an empty table: its number. -/
def newSorter : Run Nat := do
  let sorter := (← get).sorters
  modify fun desk => { desk with
    sorters := sorter + 1
    tables := Function.update desk.tables sorter [] }
  pure sorter

/-- Both passes over a schema, and the draft of the sorted copy. -/
def prepare (order : NameOrder) (sorter : Nat) (schema : LiveSchema) : Run LiveDraft := do
  let entries := order.sort LiveEntry.name schema.index
  let types ← entries.mapM (allocate order sorter)
  let index := types.map LiveType.target
  (entries.filterMap LiveEntry.type?).forM (fill order index sorter)
  let directives ← Run.ofExcept
    ((order.sort Directive.name schema.directives).mapM (sortDirective order index))
  let query ← Run.ofExcept (replaceRoot index schema.query)
  let mutation ← Run.ofExcept (replaceRoot index schema.mutation)
  let subscription ← Run.ofExcept (replaceRoot index schema.subscription)
  pure {
    description := schema.description
    query := query.map Target.name
    mutation := mutation.map Target.name
    subscription := subscription.map Target.name
    directives := directives.map LinkedDirective.unlinked
    types
    isTrusted := schema.validation.isSome }

/-- The run of a new sorter: both passes, and then the schema is constructed. -/
def sort (order : NameOrder) (schema : LiveSchema) : Run LiveSchema := do
  let sorter ← newSorter
  let draft ← schema.prepare order sorter
  note (.constructs sorter ((← get).tables sorter) draft.types)
  draft.assemble

end LiveSchema

end Staged

end SchemaOrder
