import SchemaOrder.Proofs.Schema.DescribedLegibility
import SchemaOrder.Proofs.Sorting.CheckAgreement
import SchemaOrder.Proofs.Sorting.SortedValidity

/-!
# Legibility of untampered schemas

Sorting does not take a schema out of reach of a reader: the sorted copy has the same names and
references, and its defaults are written as the same literals, but for the order of the fields of
objects. Hence every schema that came about without tampering is written as a document that can be
read, if it can be written.
-/

namespace SchemaOrder

open Schema Outcome

namespace Schema

variable {order : NameOrder} {schema sorted : Schema}

/-- The input fields under a name are those of the type with the name. -/
theorem inputFields_eq (schema : Schema) (name : Text) :
    schema.inputFields name = ((schema.type? name).map NamedType.inputFields).getD [] := by
  unfold inputFields
  cases schema.type? name with
  | none => rfl
  | some type =>
      obtain ⟨_, _, body⟩ := type
      cases body <;> rfl

/-- The input fields of an arranged type are its input fields in some order. -/
theorem NamedType.inputFields_arranged_perm (type : NamedType) :
    type.inputFields.Perm (type.arranged order).inputFields := by
  unfold NamedType.arranged
  split
  · exact .refl _
  · obtain ⟨name, description, body⟩ := type
    cases body with
    | inputObject fields oneOf => exact (NameOrder.sort_perm order InputValue.name fields).symm
    | _ => exact .refl _

/-- A schema and the schema with everything arranged have the same input fields. -/
theorem IsArranged.sameInputs (arranged : IsArranged order schema sorted) :
    SameInputs schema sorted := by
  refine ⟨fun name => (arranged.kind?_eq name).symm, fun name => ?_⟩
  rw [inputFields_eq, inputFields_eq, arranged.type?]
  cases schema.type? name with
  | none => exact .refl _
  | some type => exact type.inputFields_arranged_perm

/-- An arranged body has different names where the body has. -/
theorem Body.HasUniqueNames.arranged {body : Body} (unique : body.HasUniqueNames) :
    (body.arranged order).HasUniqueNames := by
  cases body with
  | scalar | union => trivial
  | object interfaces fields | interface interfaces fields =>
      obtain ⟨fieldNames, arguments⟩ := unique
      constructor
      · rw [arrangedFields, List.map_map]
        exact NameOrder.nodup_map_sort.mpr fieldNames
      · refine List.forall_mem_map.mpr fun field mem => ?_
        exact NameOrder.nodup_map_sort.mpr (arguments field (NameOrder.mem_sort.mp mem))
  | enum values => exact NameOrder.nodup_map_sort.mpr unique
  | inputObject fields oneOf => exact NameOrder.nodup_map_sort.mpr unique

/-- A body that can be read can be read when it is arranged. -/
theorem readableBody_arranged {body : Body} (readable : schema.ReadableBody body) :
    schema.ReadableBody (body.arranged order) := by
  have fieldsReadable : ∀ {fields : List Field}, (∀ field ∈ fields, schema.ReadableField field) →
      ∀ field ∈ arrangedFields order fields, schema.ReadableField field := by
    intro fields all
    refine List.forall_mem_map.mpr fun field mem => ?_
    obtain ⟨isName, type, arguments⟩ := all field (NameOrder.mem_sort.mp mem)
    exact ⟨isName, type, fun argument argumentMem =>
      arguments argument (NameOrder.mem_sort.mp argumentMem)⟩
  cases body with
  | scalar => trivial
  | object interfaces fields | interface interfaces fields =>
      obtain ⟨names, all⟩ := readable
      exact ⟨fun name mem => names name (NameOrder.mem_sort.mp mem), fieldsReadable all⟩
  | union members => exact fun name mem => readable name (NameOrder.mem_sort.mp mem)
  | enum values => exact fun value mem => readable value (NameOrder.mem_sort.mp mem)
  | inputObject fields oneOf => exact fun field mem => readable field (NameOrder.mem_sort.mp mem)

namespace SameInputs

variable {left right : Schema} (same : SameInputs left right)
include same

/-- A body that can be read as one schema writes it can be read as the other one does. -/
theorem readableBody {body : Body} (readable : left.ReadableBody body) :
    right.ReadableBody body := by
  have fieldReadable : ∀ {field : Field}, left.ReadableField field → right.ReadableField field :=
    fun ⟨isName, type, arguments⟩ =>
      ⟨isName, type, fun argument mem => same.readableInput (arguments argument mem)⟩
  cases body with
  | scalar => trivial
  | object interfaces fields | interface interfaces fields =>
      exact ⟨readable.1, fun field mem => fieldReadable (readable.2 field mem)⟩
  | union | enum => exact readable
  | inputObject fields oneOf => exact fun field mem => same.readableInput (readable field mem)

/-- A directive that can be read as one schema writes it can be read as the other one does. -/
theorem readableDirective {directive : Directive} (readable : left.ReadableDirective directive) :
    right.ReadableDirective directive :=
  ⟨readable.isName, fun argument mem => same.readableInput (readable.arguments argument mem),
    readable.locations⟩

end SameInputs

namespace Legible

/-- Whatever is arranged is as legible as before. -/
theorem arranged (legible : schema.Legible) (arranged : IsArranged order schema sorted) :
    sorted.Legible := by
  have same := arranged.sameInputs
  refine ⟨?_, ?_, ?_, ?_⟩
  · rw [Schema.roots, arranged.query, arranged.mutation, arranged.subscription]
    exact legible.roots
  · rw [arranged.directives]
    refine List.forall_mem_map.mpr fun directive mem => ?_
    exact NameOrder.nodup_map_sort.mpr
      (legible.arguments directive (NameOrder.mem_sort.mp mem))
  · rw [arranged.directives]
    refine List.forall_mem_map.mpr fun directive mem ordinary => ?_
    obtain ⟨isName, arguments, locations⟩ := same.readableDirective
      (legible.directives directive (NameOrder.mem_sort.mp mem) ordinary)
    refine ⟨isName, fun argument argumentMem => ?_, fun location locationMem => ?_⟩
    · exact arguments argument (NameOrder.mem_sort.mp argumentMem)
    · exact locations location (NameOrder.mem_sort.mp locationMem)
  · rw [arranged.types]
    refine List.forall_mem_map.mpr fun type mem ordinary => ?_
    rw [NamedType.name_arranged] at ordinary ⊢
    obtain ⟨isName, readable, unique⟩ := legible.types type (NameOrder.mem_sort.mp mem) ordinary
    have notIntrospection : isIntrospectionType type.name = false :=
      (Bool.or_eq_false_iff.mp ordinary).2
    rw [NamedType.arranged_of_not_introspection notIntrospection]
    exact ⟨isName, readableBody_arranged (same.readableBody readable), unique.arranged⟩

/-- Validation looks at a schema without touching what is legible. -/
theorem validated (legible : schema.Legible) : schema.validated.Legible := by
  have same : SameInputs schema schema.validated := ⟨fun _ => rfl, fun _ => .refl _⟩
  refine ⟨legible.roots, legible.arguments, fun directive mem ordinary => ?_,
    fun type mem ordinary => ?_⟩
  · exact same.readableDirective (legible.directives directive mem ordinary)
  · obtain ⟨isName, readable, unique⟩ := legible.types type mem ordinary
    exact ⟨isName, same.readableBody readable, unique⟩

/-- What is written of a legible schema can be read. -/
theorem isReadable (legible : schema.Legible) (intact : schema.Intact) : schema.IsReadable := by
  intro part mem
  simp only [writtenParts, List.mem_append, List.mem_map] at mem
  rcases mem with (isSchema | ⟨directive, directiveMem, rfl⟩) | ⟨type, typeMem, rfl⟩
  · split at isSchema
    · cases isSchema
    · obtain rfl := List.mem_singleton.mp isSchema
      rintro ⟨operation, name⟩ operationMem
      refine legible.roots name ?_
      simp only [operations, List.mem_append, Option.mem_toList, Option.map_eq_some_iff,
        Prod.mk.injEq] at operationMem
      rcases operationMem with (⟨_, isRoot, -, rfl⟩ | ⟨_, isRoot, -, rfl⟩) | ⟨_, isRoot, -, rfl⟩ <;>
        simp [Schema.roots, isRoot]
  · obtain ⟨inDirectives, ordinary⟩ := List.mem_filter.mp directiveMem
    exact legible.directives directive inDirectives (by simpa using ordinary)
  · obtain ⟨entry, entryMem, isType⟩ := List.mem_filterMap.mp typeMem
    obtain ⟨inIndex, ordinary⟩ := List.mem_filter.mp entryMem
    rw [intact.index] at inIndex
    obtain ⟨listed, listedMem, rfl⟩ := List.mem_map.mp inIndex
    cases isType
    obtain ⟨isName, readable, -⟩ :=
      legible.types type listedMem (by simpa [Entry.name] using ordinary)
    exact ⟨isName, readable⟩

end Legible

end Schema

/-- The schema that is read from any source is legible. -/
theorem Source.read_legible {volume : Volume} {source : Source} {schema : Schema}
    (given : source.read volume = .ok schema) : schema.Legible := by
  cases made_of_read given with
  | ofDocument parsed defined =>
      exact ofDocument_legible (Document.isSpelled_of_parse parsed) defined
  | ofIntrospection described => exact ofIntrospection_legible described

/-- A schema that came about without tampering is legible. -/
theorem Untampered.legible {schema : Schema} (untampered : Untampered schema) :
    schema.Legible := by
  induction untampered with
  | read given => exact Source.read_legible given
  | sort earlier given inductionHypothesis =>
      obtain ⟨order, -, sorts⟩ := bind_eq_ok_iff.mp given
      exact inductionHypothesis.arranged (earlier.intact.isArranged (mapError_eq_ok_iff.mp sorts))
  | rereadDocument _ _ given => exact Source.read_legible given
  | rereadIntrospection _ _ given => exact Source.read_legible given
  | validate _ inductionHypothesis => exact inductionHypothesis.validated

/-- What is written of a schema that came about without tampering can be read. -/
theorem Untampered.isReadable {schema : Schema} (untampered : Untampered schema) :
    schema.IsReadable :=
  untampered.legible.isReadable untampered.intact

end SchemaOrder
