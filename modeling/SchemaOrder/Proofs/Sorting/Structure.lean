import SchemaOrder.Proofs.Schema.Agreement
import SchemaOrder.Proofs.Sorting.SortedCopy

/-!
# What sorting leaves alone

Arranged things agree with the original ones but for the order of their collections, kind by
kind; `sort_agrees` puts this together for the sorted copy of a closed schema. References are
compared as they stand, with every list and every refusal of null around the name.
-/

namespace SchemaOrder.Schema

variable {order : NameOrder}

/-- Sorting a collection and changing its things gives the same things in another order, if
every changed thing agrees with the original one. -/
theorem Arrangement.Relates.sort_map {α : Type} {agrees : α → α → Prop} (name : α → Text)
    {change : α → α} {things : List α} (each : ∀ thing ∈ things, agrees thing (change thing)) :
    Arrangement.anyOrder.Relates agrees things ((order.sort name things).map change) := by
  refine ⟨order.sort name things, (NameOrder.sort_perm order name things).symm, ?_⟩
  rw [List.forall₂_map_right_iff]
  exact List.forall₂_same.mpr fun thing mem => each thing (NameOrder.mem_sort.mp mem)

/-- A sorted collection holds the same things. -/
theorem Arrangement.Relates.sort {α : Type} {agrees : α → α → Prop} (name : α → Text)
    {things : List α} (each : ∀ thing ∈ things, agrees thing thing) :
    Arrangement.anyOrder.Relates agrees things (order.sort name things) := by
  have unchanged : Arrangement.anyOrder.Relates agrees things ((order.sort name things).map id) :=
    sort_map name each
  rwa [List.map_id] at unchanged

/-- Sorted names are the same names. -/
theorem Arrangement.Relates.sortNames (names : List Text) :
    Arrangement.anyOrder.Relates Eq names (order.sortNames names) :=
  Arrangement.Relates.sort id fun _ _ => rfl

/-- Arranging a field changes the order of its arguments only. -/
theorem Field.agrees_arranged (field : Field) :
    field.Agrees .rearranged (field.arranged order) where
  name := rfl
  type := rfl
  arguments := .sort InputValue.name fun _ _ => .refl (fun _ => rfl) _
  description := rfl
  deprecation := rfl

/-- Arranging a body changes the order of its collections only. -/
theorem Body.agrees_arranged (body : Body) : body.Agrees .rearranged (body.arranged order) := by
  have sameFields : ∀ fields : List Field, Arrangement.anyOrder.Relates
      (Field.Agrees .rearranged) fields (arrangedFields order fields) :=
    fun _ => .sort_map Field.name fun field _ => field.agrees_arranged
  cases body with
  | scalar specifiedBy => exact .scalar specifiedBy
  | object interfaces fields => exact .object (.sortNames interfaces) (sameFields fields)
  | interface interfaces fields => exact .interface (.sortNames interfaces) (sameFields fields)
  | union members => exact .union (.sortNames members)
  | enum values => exact .enum (.sort EnumValue.name fun _ _ => rfl)
  | inputObject fields oneOf =>
      exact .inputObject (.sort InputValue.name fun _ _ => .refl (fun _ => rfl) _) oneOf

/-- Arranging a type changes the order of its collections only, and that of no introspection
type. -/
theorem NamedType.agrees_arranged (type : NamedType) :
    type.Agrees .rearranged (type.arranged order) := by
  cases introspection : isIntrospectionType type.name with
  | true =>
      rw [NamedType.arranged_of_introspection introspection]
      exact .refl (fun _ => rfl) type
  | false =>
      rw [NamedType.arranged_of_not_introspection introspection]
      refine ⟨rfl, rfl, type.body.agrees_arranged, ?_⟩
      intro isIntrospection
      rw [introspection] at isIntrospection
      cases isIntrospection

/-- Arranging an entry of the index changes the order of the collections of its type only. -/
theorem Entry.agrees_arranged (entry : Entry) :
    entry.Agrees .rearranged (entry.arranged order) := by
  cases entry with
  | defined type => exact .defined type.agrees_arranged
  | kindless name => exact .kindless name

/-- Arranging a directive changes the order of its locations and arguments only. -/
theorem Directive.agrees_arranged (directive : Directive) :
    directive.Agrees .rearranged (directive.arranged order) where
  name := rfl
  description := rfl
  arguments := .sort InputValue.name fun _ _ => .refl (fun _ => rfl) _
  isRepeatable := rfl
  locations := .sortNames directive.locations
  deprecation := rfl

/-- The sorted copy of a closed schema is the schema once order is forgotten: the same types of
the same kinds, the same operations and directives, and in them the same fields, arguments,
interfaces, members, values and input fields, with their references, defaults, descriptions
and deprecations. References of the copy lead to the types of its own index. To a schema whose
index does not hold the type by which schemas describe themselves, and to no other, standard
types are added first. -/
theorem sort_agrees {schema : Schema} (closed : schema.Closed) (unique : schema.typeNames.Nodup) :
    ∃ sorted added, schema.sort order = .ok sorted ∧
      Agrees .rearranged { schema with index := schema.index ++ added.map .defined } sorted ∧
      sorted.index = sorted.types.map .defined ∧
      (∀ type ∈ added, type ∈ Standard.types ∧ type.name ∉ schema.typeNames) ∧
      (added = [] ↔ Text.ofString "__Schema" ∈ schema.typeNames) := by
  obtain ⟨added, sorted, standard, -, nothing⟩ :=
    sort_of_closed order closed unique
  refine ⟨_, added, sorted, ⟨rfl, rfl, rfl, rfl, ?_, ?_⟩, rfl, standard, nothing⟩
  · exact .sort_map Directive.name fun directive _ => directive.agrees_arranged
  · rw [index_withTypes_arranged closed.defined]
    apply Arrangement.Relates.append
    · exact .sort_map Entry.name fun entry _ => entry.agrees_arranged
    · apply Arrangement.Relates.refl
      intro entry mem
      obtain ⟨type, -, rfl⟩ := List.mem_map.mp mem
      exact .defined (.refl (fun _ => rfl) type)

/-- Sorted by the length of names, `starter` stays what it is but for its order. -/
theorem sort_agrees_starter : starter.Closed ∧ starter.typeNames.Nodup ∧
    ∃ sorted added, starter.sort .byLength = .ok sorted ∧
      Agrees .rearranged { starter with index := starter.index ++ added.map .defined } sorted ∧
      sorted.index = sorted.types.map .defined ∧
      (∀ type ∈ added, type ∈ Standard.types ∧ type.name ∉ starter.typeNames) ∧
      (added = [] ↔ Text.ofString "__Schema" ∈ starter.typeNames) :=
  ⟨starter_closed, starter_hasUniqueNames.index,
    sort_agrees starter_closed starter_hasUniqueNames.index⟩

end SchemaOrder.Schema
