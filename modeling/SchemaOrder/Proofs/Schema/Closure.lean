import SchemaOrder.Schema.Draft

/-!
# Closed schemas

This module says what it means that a schema holds all that it refers to. `Closed` asks it
of every type of the index; `Resolvable` leaves out the introspection types, whose
references are never looked up. `HasUniqueNames` says that named collections are mappings,
which lists of named things alone do not say.
-/

namespace SchemaOrder.Schema

/-- The names that a body leads to. -/
def Body.references : Body → List Text
  | .object interfaces fields | .interface interfaces fields =>
    interfaces ++ TypeDraft.fieldReferences fields
  | .union members => members
  | .inputObject fields _ => fields.map fun field => field.type.base
  | .scalar _ | .enum _ => []

/-- The arguments of the fields of a body, or its input fields. -/
def Body.inputs : Body → List InputValue
  | .object _ fields | .interface _ fields => fields.flatMap Field.arguments
  | .inputObject fields _ => fields
  | .scalar _ | .union _ | .enum _ => []

/-- A body leads to the types of its arguments and input fields. -/
theorem Body.base_mem_references {body : Body} {input : InputValue} (mem : input ∈ body.inputs) :
    input.type.base ∈ body.references := by
  have inFields : ∀ {fields : List Field}, input ∈ fields.flatMap Field.arguments →
      input.type.base ∈ TypeDraft.fieldReferences fields := by
    intro fields inFields
    obtain ⟨field, fieldMem, inField⟩ := List.mem_flatMap.mp inFields
    exact List.mem_flatMap.mpr
      ⟨field, fieldMem, List.mem_cons_of_mem _ (List.mem_map_of_mem inField)⟩
  cases body with
  | object interfaces fields | interface interfaces fields =>
      exact List.mem_append_right _ (inFields mem)
  | inputObject fields oneOf => exact List.mem_map_of_mem mem
  | scalar | union | enum => cases mem

/-- The names that a type leads to. -/
def NamedType.references (type : NamedType) : List Text :=
  type.body.references

/-- The names that the arguments of a directive lead to. -/
def Directive.references (directive : Directive) : List Text :=
  directive.arguments.map fun argument => argument.type.base

/-- A schema in which sorting can look up every reference: the entries of the index are of
kinds, and the index has what they, the directives and the operations refer to. The
references of introspection types do not count. -/
structure Resolvable (schema : Schema) : Prop where
  defined : ∀ entry ∈ schema.index, ∃ type, entry = .defined type
  types : ∀ type ∈ schema.definedTypes, isIntrospectionType type.name = false →
    ∀ name ∈ type.references, name ∈ schema.typeNames
  directives : ∀ directive ∈ schema.directives, ∀ name ∈ directive.references,
    name ∈ schema.typeNames
  roots : ∀ name, some name ∈ schema.roots → name ∈ schema.typeNames

/-- A schema whose index holds only types of kinds, and every type that one of its types, an
argument of a directive or an operation refers to. -/
structure Closed (schema : Schema) : Prop where
  defined : ∀ entry ∈ schema.index, ∃ type, entry = .defined type
  types : ∀ type ∈ schema.definedTypes, ∀ name ∈ type.references, name ∈ schema.typeNames
  directives : ∀ directive ∈ schema.directives, ∀ name ∈ directive.references,
    name ∈ schema.typeNames
  roots : ∀ name, some name ∈ schema.roots → name ∈ schema.typeNames

/-- In a closed schema sorting can look up every reference. -/
theorem Closed.resolvable {schema : Schema} (closed : schema.Closed) : schema.Resolvable where
  defined := closed.defined
  types := fun type mem _ => closed.types type mem
  directives := closed.directives
  roots := closed.roots

/-- What the operations and the directives of a resolvable schema refer to is in its index. -/
theorem Resolvable.own {schema : Schema} (resolvable : schema.Resolvable) {name : Text}
    (isOwn : some name ∈ schema.roots ∨
      ∃ directive ∈ schema.directives, name ∈ directive.references) : name ∈ schema.typeNames := by
  rcases isOwn with isRoot | ⟨directive, mem, isReference⟩
  · exact resolvable.roots name isRoot
  · exact resolvable.directives directive mem name isReference

/-- Whether the named things inside a body have different names. -/
def Body.HasUniqueNames : Body → Prop
  | .object _ fields | .interface _ fields =>
    (fields.map Field.name).Nodup ∧
      ∀ field ∈ fields, (field.arguments.map InputValue.name).Nodup
  | .enum values => (values.map EnumValue.name).Nodup
  | .inputObject fields _ => (fields.map InputValue.name).Nodup
  | .scalar _ | .union _ => True

/-- A schema in which no two things of one named collection have the same name. -/
structure HasUniqueNames (schema : Schema) : Prop where
  index : schema.typeNames.Nodup
  bodies : ∀ type ∈ schema.definedTypes, type.body.HasUniqueNames
  directives : (schema.directives.map Directive.name).Nodup
  arguments : ∀ directive ∈ schema.directives, (directive.arguments.map InputValue.name).Nodup

/-- The entries of an index of kinds are its types. -/
theorem index_eq_map_definedTypes {schema : Schema}
    (defined : ∀ entry ∈ schema.index, ∃ type, entry = .defined type) :
    schema.index = schema.definedTypes.map .defined := by
  unfold definedTypes
  generalize schema.index = entries at defined
  induction entries with
  | nil => rfl
  | cons head tail inductionHypothesis =>
      obtain ⟨type, rfl⟩ := defined head (by simp)
      have tails := inductionHypothesis fun entry mem => defined entry (by simp [mem])
      simpa [Entry.type?] using tails

/-- The names of an index of kinds are the names of its types. -/
theorem typeNames_eq_map_definedTypes {schema : Schema}
    (defined : ∀ entry ∈ schema.index, ∃ type, entry = .defined type) :
    schema.typeNames = schema.definedTypes.map NamedType.name := by
  rw [typeNames, index_eq_map_definedTypes defined, List.map_map]
  rfl

instance (body : Body) : Decidable body.HasUniqueNames :=
  match body with
  | .object _ _ | .interface _ _ => inferInstanceAs (Decidable (_ ∧ _))
  | .enum _ | .inputObject _ _ => inferInstanceAs (Decidable (List.Nodup _))
  | .scalar _ | .union _ => .isTrue trivial

section Starter

variable (arrange : (α : Type) → List α → List α)

/-- The type that serves queries in a small schema, with its collections arranged in some way. -/
def starterQuery : NamedType :=
  ⟨"Query", none, .object [] (arrange _ [
    ⟨"color", .named "Color", arrange _ [
      ⟨"shade", .named "Shade",
        some (.object (arrange _ [("red", .integer 1), ("blue", .integer 2)])), none, none⟩,
      ⟨"of", .named "Color", none, none, none⟩], none, none⟩,
    ⟨"age", .named "Int", [], none, none⟩])⟩

/-- The enum of the small schema. -/
def starterColor : NamedType :=
  ⟨"Color", none, .enum (arrange _ [⟨"RED", none, none⟩, ⟨"BLUE", none, none⟩])⟩

/-- The input object of the small schema. -/
def starterShade : NamedType :=
  ⟨"Shade", none, .inputObject (arrange _ [⟨"red", .named "Int", none, none, none⟩,
    ⟨"blue", .named "Int", none, none, none⟩]) (.boolean false)⟩

open Standard in
/-- A small closed schema: an object, an enum, an input object, and the standard types, with all
its collections arranged in some way. -/
def starterBy : Schema :=
  let types := [starterQuery arrange, starterShade arrange, intScalar,
    starterColor arrange, booleanScalar, stringScalar, schemaIntrospection, typeIntrospection,
    typeKindIntrospection, fieldIntrospection, inputValueIntrospection, enumValueIntrospection,
    directiveIntrospection, directiveLocationIntrospection]
  { description := none, query := some "Query", mutation := none, subscription := none
    directives := arrange _ Standard.directives, types := arrange _ types
    index := arrange _ (types.map .defined), validation := none }

end Starter

/-- The small schema with its collections as they are listed above. -/
def starter : Schema :=
  starterBy fun _ => id

/-- Everything that `starter` refers to is in its index. -/
theorem starter_closed : starter.Closed where
  defined := by simp [starter, starterBy]
  types := by decide +kernel
  directives := by decide +kernel
  roots := by
    intro name mem
    have known : ∀ name ∈ starter.roots.filterMap id, name ∈ starter.typeNames := by decide +kernel
    exact known name (by simpa using mem)

/-- No two things of one collection of `starter` have the same name. -/
theorem starter_hasUniqueNames : starter.HasUniqueNames where
  index := by decide +kernel
  bodies := by decide +kernel
  directives := by decide +kernel
  arguments := by decide +kernel

end SchemaOrder.Schema
