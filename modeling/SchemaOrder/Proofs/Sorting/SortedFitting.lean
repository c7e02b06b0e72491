import SchemaOrder.Proofs.Schema.FittingDescriptions
import SchemaOrder.Proofs.Sorting.SortedLegibility

/-!
# Defaults of untampered schemas

Whether a value fits a type does not depend on the order of anything, so that the defaults of a
sorted schema fit their types where those of the schema do. Hence the defaults of every schema that
came about without tampering fit their types.
-/

namespace SchemaOrder

open Schema Outcome

namespace Schema

variable {order : NameOrder} {schema sorted : Schema}

/-- Two schemas whose names lead to the same input types, but for the order in these. -/
structure SameInputTypes (left right : Schema) : Prop extends SameInputs left right where
  enumValues : ∀ name, (left.enumValues name).Perm (right.enumValues name)
  takesOneField : ∀ name, left.takesOneField name = right.takesOneField name

/-- A value fits a type in every schema that has the same input types. -/
theorem Fits.of_sameInputTypes {left right : Schema} (same : SameInputTypes left right)
    {value : Value} {type : TypeReference} (fits : left.Fits value type) :
    right.Fits value type := by
  induction fits with
  | null nullable => exact .null nullable
  | list isList _ inductionHypothesis => exact .list isList inductionHypothesis
  | @object fields type isSingle isInputObject known _ absent one inductionHypothesis =>
      have inFields : ∀ {field}, field ∈ right.inputFields type.base →
          field ∈ left.inputFields type.base :=
        fun mem => (same.inputFields type.base).mem_iff.mpr mem
      refine .object isSingle (same.kind? _ ▸ isInputObject) (fun entry mem => ?_)
        (fun field mem => inductionHypothesis field (inFields mem))
        (fun field mem => absent field (inFields mem))
        (fun takes => one (same.takesOneField _ ▸ takes))
      obtain ⟨field, fieldMem, sameName⟩ := known entry mem
      exact ⟨field, (same.inputFields type.base).mem_iff.mp fieldMem, sameName⟩
  | @enum name type isSingle isEnum mem =>
      exact .enum isSingle (same.kind? _ ▸ isEnum)
        (((same.enumValues type.base).map EnumValue.name).mem_iff.mp mem)
  | scalar isSingle isScalar spelled notNull given =>
      exact .scalar isSingle (same.kind? _ ▸ isScalar) spelled notNull given

/-- The body of an arranged type is its body, or that body arranged. -/
theorem NamedType.body_arranged (type : NamedType) :
    (type.arranged order).body = type.body ∨
      (type.arranged order).body = type.body.arranged order := by
  unfold NamedType.arranged
  split
  · exact .inl rfl
  · exact .inr rfl

/-- A schema and the schema with everything arranged have the same input types. -/
theorem IsArranged.sameInputTypes (arranged : IsArranged order schema sorted) :
    SameInputTypes schema sorted where
  toSameInputs := arranged.sameInputs
  enumValues name := by
    unfold Schema.enumValues
    rw [arranged.type?]
    cases schema.type? name with
    | none => exact .refl _
    | some type =>
        simp only [Option.map_some]
        rcases type.body_arranged with same | same <;> rw [same]
        cases type.body with
        | enum values => exact (NameOrder.sort_perm order EnumValue.name values).symm
        | _ => exact .refl _
  takesOneField name := by
    unfold Schema.takesOneField
    rw [arranged.type?]
    cases schema.type? name with
    | none => rfl
    | some type =>
        simp only [Option.map_some]
        rcases type.body_arranged with same | same <;> rw [same]
        cases type.body <;> rfl

/-- A type has the same arguments and input fields when it is arranged. -/
theorem NamedType.mem_inputs_arranged {type : NamedType} {input : InputValue} :
    input ∈ (type.arranged order).body.inputs ↔ input ∈ type.body.inputs := by
  rcases type.body_arranged with same | same <;> rw [same]
  cases type.body with
  | object interfaces fields | interface interfaces fields =>
      simp [Body.arranged, Body.inputs, arrangedFields, Field.arranged]
  | inputObject fields oneOf => exact NameOrder.mem_sort
  | scalar | union | enum => rfl

/-- The arguments and input fields of an arranged schema are those of the schema. -/
theorem IsArranged.isOwnInput (arranged : IsArranged order schema sorted) {input : InputValue}
    (isOwn : sorted.IsOwnInput input) : schema.IsOwnInput input := by
  rcases isOwn with ⟨type, mem, ordinary, inType⟩ | ⟨directive, mem, ordinary, inDirective⟩
  · rw [arranged.types] at mem
    obtain ⟨original, originalMem, rfl⟩ := List.mem_map.mp mem
    rw [NamedType.name_arranged] at ordinary
    exact .inl ⟨original, NameOrder.mem_sort.mp originalMem, ordinary,
      NamedType.mem_inputs_arranged.mp inType⟩
  · rw [arranged.directives] at mem
    obtain ⟨original, originalMem, rfl⟩ := List.mem_map.mp mem
    exact .inr ⟨original, NameOrder.mem_sort.mp originalMem, ordinary,
      NameOrder.mem_sort.mp inDirective⟩

namespace HasFittingDefaults

/-- The defaults of an arranged schema fit where those of the schema do. -/
theorem arranged (fitting : schema.HasFittingDefaults) (arranged : IsArranged order schema sorted) :
    sorted.HasFittingDefaults := fun input isOwn value isDefault =>
  (fitting input (arranged.isOwnInput isOwn) value isDefault).of_sameInputTypes
    arranged.sameInputTypes

/-- Validation leaves defaults as they are. -/
theorem validated (fitting : schema.HasFittingDefaults) :
    schema.validated.HasFittingDefaults := by
  have same : SameInputTypes schema schema.validated :=
    ⟨⟨fun _ => rfl, fun _ => .refl _⟩, fun _ => .refl _, fun _ => rfl⟩
  exact fun input isOwn value isDefault =>
    (fitting input isOwn value isDefault).of_sameInputTypes same

end HasFittingDefaults

end Schema

/-- The defaults of the schema that is read from any source fit their types. -/
theorem Source.read_hasFittingDefaults {volume : Volume} {source : Source} {schema : Schema}
    (given : source.read volume = .ok schema) : schema.HasFittingDefaults := by
  cases made_of_read given with
  | ofDocument parsed defined =>
      exact ofDocument_hasFittingDefaults (Document.isSpelled_of_parse parsed) defined
  | ofIntrospection described => exact ofIntrospection_hasFittingDefaults described

/-- The defaults of a schema that came about without tampering fit their types. -/
theorem Untampered.hasFittingDefaults {schema : Schema} (untampered : Untampered schema) :
    schema.HasFittingDefaults := by
  induction untampered with
  | read given => exact Source.read_hasFittingDefaults given
  | sort earlier given inductionHypothesis =>
      obtain ⟨order, -, sorts⟩ := bind_eq_ok_iff.mp given
      exact inductionHypothesis.arranged (earlier.intact.isArranged (mapError_eq_ok_iff.mp sorts))
  | rereadDocument _ _ given => exact Source.read_hasFittingDefaults given
  | rereadIntrospection _ _ given => exact Source.read_hasFittingDefaults given
  | validate _ inductionHypothesis => exact inductionHypothesis.validated

end SchemaOrder
