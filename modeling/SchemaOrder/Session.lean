import SchemaOrder.Order.Check
import SchemaOrder.Order.Collator
import SchemaOrder.Schema.Fingerprint
import SchemaOrder.Storage.Source

/-!
# Sessions

This module holds sessions: schemas in named slots, and the steps that read schemas into
slots, sort them, store and read them again, look at them, and tamper with their indexes.
A step that fails leaves all slots alone, except that a schema remembers what validation
said about it.
-/

namespace SchemaOrder

/-- What names are compared by: options of comparison, or an order of the caller. -/
inductive Comparison where
  | options (value : Json)
  | byOrder (order : NameOrder)

/-- The order of names that a comparison stands for. -/
def Comparison.nameOrder (collation : Collation) : Comparison → Except Fault NameOrder
  | .options value => (NameOrder.ofJson collation value).mapError .options
  | .byOrder order => .ok order

namespace Schema

/-- Whether a schema is sorted by a comparison. -/
def isSortedBy (collation : Collation) (comparison : Comparison) (schema : Schema) :
    Except Fault Bool := do
  return schema.isSorted (← comparison.nameOrder collation)

/-- The copy of a schema that is sorted by a comparison. -/
def sortedBy (collation : Collation) (comparison : Comparison) (schema : Schema) :
    Except Fault Schema := do
  schema.sorted (← comparison.nameOrder collation)

/-- The fingerprint of a schema that is sorted by a comparison. -/
def fingerprintBy (collation : Collation) (comparison : Comparison) (schema : Schema) :
    Except Fault Text := do
  schema.fingerprint (← comparison.nameOrder collation)

/-- The document of a schema, with the faults of a whole run. -/
def documentText (schema : Schema) : Except Fault Text :=
  schema.toDocument.mapError .print

/-- The text of the introspection result of a schema, with the faults of a whole run. -/
def introspectionText (schema : Schema) : Except Fault Text :=
  schema.toIntrospection.mapError .description

/-- Checks that a type may be made under a name. -/
def checkFreshName (name : Text) : Except Fault Unit :=
  if isStandardType name then .error (.schema (.reservedType name))
  else (checkName name).mapError .schema

/-- The schema without an entry of its index. References to the type stay. -/
def removeEntry (name : Text) (schema : Schema) : Except Fault Schema :=
  if schema.typeNames.contains name then
    .ok { schema with index := schema.index.filter fun entry => entry.name ≠ name }
  else .error (.noEntry name)

/-- The schema with an entry of no kind under a name. -/
def addKindless (name : Text) (schema : Schema) : Except Fault Schema := do
  checkFreshName name
  pure { schema with index := Named.insert Entry.name (.kindless name) schema.index }

end Schema

namespace TypeReference

/-- Checks that a reference may be made of fresh types, the names inside it first. -/
def checkFresh : TypeReference → Except Fault Unit
  | .named name => Schema.checkFreshName name
  | .list inner => inner.checkFresh
  | .nonNull inner => do
    inner.checkFresh
    if inner.isNonNull then .error (.nonNullTwice inner) else .ok ()

end TypeReference

/-- What a step does. -/
inductive Activity where
  /-- Reads a schema. -/
  | read (source : Source)
  /-- Sorts a schema. -/
  | sort (comparison : Comparison)
  /-- Writes a schema as a document and reads that. -/
  | rereadDocument
  /-- Describes a schema and reads the description. -/
  | rereadIntrospection
  /-- Asks whether a schema is sorted. -/
  | check (comparison : Comparison)
  | fingerprint (comparison : Comparison)
  /-- Writes a schema as a document. -/
  | writeDocument
  /-- Describes a schema. -/
  | describe
  /-- Looks at a schema. -/
  | look
  /-- Takes an entry out of the index. -/
  | remove (name : Text)
  /-- Puts an entry of no kind into the index. -/
  | addKindless (name : Text)
  /-- Looks up a reference in the index of a sorted copy, or in an empty one. -/
  | resolve (reference : TypeReference) (isSorted : Bool)

/-- A step: what it does, the slot it takes a schema from, and the slot for the result. -/
structure Step where
  activity : Activity
  source : Text
  target : Text

/-- What a step answers. -/
inductive Answer where
  | schema (schema : Schema)
  | text (text : Text)
  | truth (value : Bool)
  | reference (reference : TypeReference)
deriving Repr

/-- Why a step has no answer. -/
inductive StepFault where
  /-- There is no schema in the slot. -/
  | emptySlot
  | failed (fault : Fault)
deriving Repr

/-- The schemas in the slots, by the names of these. -/
structure Session where
  slots : List (Text × Schema)

namespace Session

/-- The session in which all slots are empty. -/
def start : Session :=
  ⟨[]⟩

/-- The schema in a slot. -/
def schema? (session : Session) (slot : Text) : Option Schema :=
  (Named.find? Prod.fst slot session.slots).map (·.2)

/-- The session with a schema put into a slot. -/
def put (session : Session) (slot : Text) (schema : Schema) : Session :=
  ⟨Named.insert Prod.fst (slot, schema) session.slots⟩

/-- What a step makes of a schema: the schema that takes its place, and the answer. -/
structure Effect where
  kept : Schema
  answer : Except Fault Answer
  /-- The schema for the target of the step. -/
  made : Option Schema

namespace Effect

/-- A step that only looks at a schema. -/
def looking (schema : Schema) (answer : Except Fault Answer) : Effect :=
  ⟨schema, answer, none⟩

/-- A step that makes another schema. -/
def making (kept : Schema) (made : Except Fault Schema) : Effect :=
  ⟨kept, made.map .schema, made.toOption⟩

/-- A step that tampers with a schema. -/
def changing (schema : Schema) (changed : Except Fault Schema) : Effect :=
  ⟨changed.toOption.getD schema, changed.map .schema, none⟩

end Effect

/-- The reference looked up in the index of the sorted copy of a schema, or in an empty
index. -/
def resolved (schema : Schema) (reference : TypeReference) (isSorted : Bool) :
    Except Fault TypeReference := do
  let index ←
    if isSorted then
      pure ((← schema.sorted .byCodePoint).definedTypes.map Sorter.targetOf)
    else pure []
  reference.checkFresh
  ((Sorter.replaceReference index reference).map Schema.Link.reference).mapError .sort

/-- What an activity does with the schema it starts from. -/
def effect (volume : Volume) (collation : Collation) (schema : Schema) : Activity → Effect
  | .read source => .making schema (source.read volume)
  | .sort comparison => .making schema (schema.sortedBy collation comparison)
  | .rereadDocument => .making schema do
    (Source.document (← schema.documentText) false).read volume
  | .rereadIntrospection => .making schema.validated do
    (Source.introspection (← schema.introspectionText)).read volume
  | .check comparison => .looking schema do
    return .truth (← schema.isSortedBy collation comparison)
  | .fingerprint comparison => .looking schema do
    return .text (← schema.fingerprintBy collation comparison)
  | .writeDocument => .looking schema do return .text (← schema.documentText)
  | .describe => .looking schema.validated do return .text (← schema.introspectionText)
  | .look => .looking schema (.ok (.schema schema))
  | .remove name => .changing schema (schema.removeEntry name)
  | .addKindless name => .changing schema (schema.addKindless name)
  | .resolve reference isSorted => .looking schema do
    return .reference (← resolved schema reference isSorted)

/-- Does a step. Reading needs no schema to start from. -/
def run (volume : Volume) (collation : Collation) (session : Session) (step : Step) :
    Session × Except StepFault Answer :=
  match step.activity, session.schema? step.source with
  | .read source, _ =>
    match source.read volume with
    | .ok schema => (session.put step.target schema, .ok (.schema schema))
    | .error fault => (session, .error (.failed fault))
  | _, none => (session, .error .emptySlot)
  | activity, some schema =>
    let effect := effect volume collation schema activity
    let kept := session.put step.source effect.kept
    let next :=
      match effect.made with
      | some made => kept.put step.target made
      | none => kept
    (next, effect.answer.mapError .failed)

end Session

end SchemaOrder
