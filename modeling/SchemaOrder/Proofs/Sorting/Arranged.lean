import SchemaOrder.Proofs.Order.StableSort
import SchemaOrder.Proofs.Schema.Closure

/-!
# Arranged schemas

This module holds what sorting should do to the parts of a schema, said without tables,
lookups or failures: every collection of a thing is stably sorted by name, and all else is
left as it is. Introspection types keep their own order.
-/

namespace SchemaOrder.Schema

variable (order : NameOrder)

/-- A field with its arguments sorted. -/
def Field.arranged (field : Field) : Field :=
  { field with arguments := order.sort InputValue.name field.arguments }

/-- Fields sorted, with their arguments sorted. -/
def arrangedFields (fields : List Field) : List Field :=
  (order.sort Field.name fields).map (Field.arranged order)

/-- A body with its collections sorted. -/
def Body.arranged : Body → Body
  | .scalar specifiedBy => .scalar specifiedBy
  | .object interfaces fields => .object (order.sortNames interfaces) (arrangedFields order fields)
  | .interface interfaces fields =>
    .interface (order.sortNames interfaces) (arrangedFields order fields)
  | .union members => .union (order.sortNames members)
  | .enum values => .enum (order.sort EnumValue.name values)
  | .inputObject fields oneOf => .inputObject (order.sort InputValue.name fields) oneOf

/-- A type with its collections sorted, unless it is an introspection type. -/
def NamedType.arranged (type : NamedType) : NamedType :=
  if isIntrospectionType type.name then type else { type with body := type.body.arranged order }

/-- An entry of the index with the collections of its type sorted. -/
def Entry.arranged : Entry → Entry
  | .defined type => .defined (type.arranged order)
  | .kindless name => .kindless name

/-- A directive with its locations and arguments sorted. -/
def Directive.arranged (directive : Directive) : Directive :=
  { directive with
    locations := order.sortNames directive.locations
    arguments := order.sort InputValue.name directive.arguments }

/-- The types of the index sorted, with their collections sorted. -/
def arrangedTypes (schema : Schema) : List NamedType :=
  (order.sort NamedType.name schema.definedTypes).map (NamedType.arranged order)

/-- The directives sorted, with their collections sorted. -/
def arrangedDirectives (schema : Schema) : List Directive :=
  (order.sort Directive.name schema.directives).map (Directive.arranged order)

variable {order}

/-- A field keeps its name. -/
@[simp] theorem Field.name_arranged (field : Field) : (field.arranged order).name = field.name :=
  rfl

/-- So does a directive. -/
@[simp] theorem Directive.name_arranged (directive : Directive) :
    (directive.arranged order).name = directive.name :=
  rfl

/-- So does a type. -/
@[simp] theorem NamedType.name_arranged (type : NamedType) :
    (type.arranged order).name = type.name := by
  unfold NamedType.arranged
  split <;> rfl

/-- So does an entry of the index. -/
@[simp] theorem Entry.name_arranged (entry : Entry) : (entry.arranged order).name = entry.name := by
  cases entry with
  | defined type => exact NamedType.name_arranged type
  | kindless name => rfl

/-- Introspection types are not rearranged. -/
theorem NamedType.arranged_of_introspection {type : NamedType}
    (introspection : isIntrospectionType type.name = true) : type.arranged order = type := by
  simp [NamedType.arranged, introspection]

/-- The bodies of other types are rearranged. -/
theorem NamedType.arranged_of_not_introspection {type : NamedType}
    (ordinary : isIntrospectionType type.name = false) :
    type.arranged order = { type with body := type.body.arranged order } := by
  simp [NamedType.arranged, ordinary]

/-- Standard types are not rearranged: they are scalars or introspection types. -/
theorem NamedType.arranged_of_standard {type : NamedType} (standard : type ∈ Standard.types) :
    type.arranged order = type := by
  have kinds : ∀ type ∈ Standard.types,
      isIntrospectionType type.name = true ∨ type.body.kind = .scalar := by decide +kernel
  rcases kinds type standard with introspection | isScalar
  · exact arranged_of_introspection introspection
  · obtain ⟨name, description, body⟩ := type
    cases body <;> cases isScalar
    simp [arranged, Body.arranged]

/-- The names of the arranged types are the sorted names of the types. -/
theorem map_name_arrangedTypes (schema : Schema) :
    (schema.arrangedTypes order).map NamedType.name =
      order.sortNames (schema.definedTypes.map NamedType.name) := by
  rw [arrangedTypes, List.map_map, ← NameOrder.map_name_sort]
  apply List.map_congr_left
  intro type _
  exact NamedType.name_arranged type

/-- Arranged types have different names exactly if the types have. -/
theorem nodup_arrangedTypes (order : NameOrder) {schema : Schema} :
    ((schema.arrangedTypes order).map NamedType.name).Nodup ↔
      (schema.definedTypes.map NamedType.name).Nodup := by
  rw [map_name_arrangedTypes, ← NameOrder.map_name_sort]
  exact NameOrder.nodup_map_sort

/-- The arranged types are in order. -/
theorem arrangedTypes_inOrder (order : NameOrder) (schema : Schema) :
    order.InOrder NamedType.name (schema.arrangedTypes order) := by
  rw [← NameOrder.inOrder_map_name, map_name_arrangedTypes]
  exact order.sort_inOrder id _

/-- The arranged types of an index of kinds are its sorted entries, arranged. -/
theorem map_defined_arrangedTypes {schema : Schema}
    (defined : ∀ entry ∈ schema.index, ∃ type, entry = .defined type) :
    (schema.arrangedTypes order).map .defined =
      (order.sort Entry.name schema.index).map (Entry.arranged order) := by
  have sorted : (order.sort NamedType.name schema.definedTypes).map Entry.defined =
      order.sort Entry.name (schema.definedTypes.map Entry.defined) :=
    NameOrder.map_sort fun _ _ => rfl
  rw [index_eq_map_definedTypes defined, ← sorted, List.map_map, arrangedTypes, List.map_map]
  rfl

/-- The fields of a type lead to the same names when they are arranged. -/
theorem mem_fieldReferences_arrangedFields {fields : List Field} {name : Text} :
    name ∈ TypeDraft.fieldReferences (arrangedFields order fields) ↔
      name ∈ TypeDraft.fieldReferences fields := by
  simp [TypeDraft.fieldReferences, arrangedFields, Field.arranged]

/-- A body leads to the same names when it is arranged. -/
theorem Body.mem_references_arranged {body : Body} {name : Text} :
    name ∈ (body.arranged order).references ↔ name ∈ body.references := by
  cases body with
  | scalar => rfl
  | enum => rfl
  | object | interface =>
      simp [Body.arranged, Body.references, NameOrder.sortNames, mem_fieldReferences_arrangedFields]
  | union => simp [Body.arranged, Body.references, NameOrder.sortNames]
  | inputObject => simp [Body.arranged, Body.references]

/-- A type leads to the same names when it is arranged. -/
theorem NamedType.mem_references_arranged {type : NamedType} {name : Text} :
    name ∈ (type.arranged order).references ↔ name ∈ type.references := by
  unfold NamedType.arranged
  split
  · rfl
  · exact Body.mem_references_arranged

end SchemaOrder.Schema
