import SchemaOrder.Proofs.Sorting.ConstructedCopy

/-!
# The sorted copy

Sorting succeeds exactly on resolvable schemas, and `sort_eq_ok_iff` says what it gives: the
arranged directives and the arranged types in their order, collected again. Collecting adds
nothing to the types of a closed schema that holds the type by which schemas describe
themselves; in `sort_arranges_collections` every collection of the copy is therefore the
stable sort of the matching collection. A schema from whose index that type was taken out
gets it back.
-/

namespace SchemaOrder.Schema

open Sorter Outcome

variable {order : NameOrder} {schema : Schema}

/-- The references of the draft of the sorted copy are those of the schema. -/
theorem mem_ownReferences_arrangedDraft {name : Text} :
    name ∈ (arrangedDraft order schema).ownReferences ↔
      some name ∈ schema.roots ∨ ∃ directive ∈ schema.directives, name ∈ directive.references := by
  simp only [Draft.ownReferences, arrangedDraft, roots, List.mem_append, List.mem_filterMap,
    id_eq, exists_eq_right, List.mem_flatMap, arrangedDirectives, List.mem_map]
  have sameReferences : ∀ directive : Directive,
      name ∈ (directive.arranged order).references ↔ name ∈ directive.references := by
    intro directive
    simp [Directive.references, Directive.arranged]
  constructor
  · rintro (isRoot | ⟨_, ⟨directive, mem, rfl⟩, nameMem⟩)
    · exact .inl isRoot
    · exact .inr ⟨directive, NameOrder.mem_sort.mp mem, (sameReferences directive).mp nameMem⟩
  · rintro (isRoot | ⟨directive, mem, nameMem⟩)
    · exact .inl isRoot
    · exact .inr ⟨_, ⟨directive, NameOrder.mem_sort.mpr mem, rfl⟩,
        (sameReferences directive).mpr nameMem⟩

/-- Arranging types renames none. -/
theorem mem_names_arrangedTypes (defined : ∀ entry ∈ schema.index, ∃ type, entry = .defined type)
    {name : Text} :
    name ∈ (schema.arrangedTypes order).map NamedType.name ↔ name ∈ schema.typeNames := by
  rw [map_name_arrangedTypes, typeNames_eq_map_definedTypes defined]
  exact NameOrder.mem_sort

/-- Types of different names are still of different names without the entries of no kind. -/
theorem nodup_definedTypes (unique : schema.typeNames.Nodup) :
    (schema.definedTypes.map NamedType.name).Nodup := by
  refine unique.sublist ?_
  unfold definedTypes typeNames
  induction schema.index with
  | nil => exact List.Sublist.refl _
  | cons head tail inductionHypothesis =>
      cases head with
      | defined type => exact inductionHypothesis.cons_cons _
      | kindless name => exact inductionHypothesis.cons _

/-- Where the names of the types are unique, a resolvable schema is sorted as its arranged types are
assembled by name. -/
theorem sort_eq_assemble (unique : (schema.definedTypes.map NamedType.name).Nodup)
    (resolvable : schema.Resolvable) :
    schema.sort order = (arrangedDraft order schema).assemble := by
  rw [sort, (sortedDraft_eq_ok_iff unique).mpr ⟨resolvable, rfl⟩]
  exact construct_arrangedObjects unique resolvable

/-- Where the names of the index are unique, sorting succeeds exactly on resolvable schemas,
and gives the arranged types collected again. -/
theorem sort_eq_ok_iff (unique : schema.typeNames.Nodup) {sorted : Schema} :
    schema.sort order = .ok sorted ↔ schema.Resolvable ∧ ∃ types,
      (arrangedDraft order schema).collect = .ok (types.map .ofType) ∧
        Draft.Recollects (schema.arrangedTypes order) types ∧
        sorted = (arrangedDraft order schema).withTypes types := by
  obtain ⟨types, collected, recollects⟩ :=
    Draft.collect_recollects (arrangedDraft order schema) rfl
  have assembled := Draft.assemble_of_collect collected
  constructor
  · intro sorts
    obtain ⟨draft, drafted, -⟩ := bind_eq_ok_iff.mp sorts
    obtain ⟨resolvable, -⟩ := (sortedDraft_eq_ok_iff (nodup_definedTypes unique)).mp drafted
    rw [sort_eq_assemble (nodup_definedTypes unique) resolvable, assembled] at sorts
    exact ⟨resolvable, types, collected, recollects, (Except.ok.inj sorts).symm⟩
  · rintro ⟨resolvable, others, othersCollected, -, rfl⟩
    rw [sort_eq_assemble (nodup_definedTypes unique) resolvable]
    exact Draft.assemble_of_collect othersCollected

/-- The draft of the sorted copy of a closed schema leads to nothing but its own types. -/
theorem arrangedDraft_closed (order : NameOrder) (closed : schema.Closed) :
    (∀ type ∈ schema.arrangedTypes order, ∀ name ∈ type.references,
      name ∈ (schema.arrangedTypes order).map NamedType.name) ∧
    ∀ name ∈ (arrangedDraft order schema).ownReferences,
      name ∈ (schema.arrangedTypes order).map NamedType.name := by
  constructor
  · intro type mem name nameMem
    obtain ⟨original, originalMem, rfl⟩ := List.mem_map.mp mem
    exact (mem_names_arrangedTypes closed.defined).mpr
      (closed.types original (NameOrder.mem_sort.mp originalMem) name
        (NamedType.mem_references_arranged.mp nameMem))
  · intro name mem
    apply (mem_names_arrangedTypes closed.defined).mpr
    rcases mem_ownReferences_arrangedDraft.mp mem with isRoot | ⟨directive, directiveMem, nameMem⟩
    · exact closed.roots name isRoot
    · exact closed.directives directive directiveMem name nameMem

/-- A closed schema is sorted into its arranged types. Behind them stand standard types that the
index did not hold, and none exactly if it held the type by which schemas describe themselves. -/
theorem sort_of_closed (order : NameOrder) (closed : schema.Closed)
    (unique : schema.typeNames.Nodup) :
    ∃ added, schema.sort order =
        .ok ((arrangedDraft order schema).withTypes (schema.arrangedTypes order ++ added)) ∧
      (∀ type ∈ added, type ∈ Standard.types ∧ type.name ∉ schema.typeNames) ∧
      (added.map NamedType.name).Nodup ∧
      (added = [] ↔ Text.ofString "__Schema" ∈ schema.typeNames) := by
  have sameNames : ∀ {name}, name ∈ (schema.arrangedTypes order).map NamedType.name ↔
      name ∈ schema.typeNames :=
    mem_names_arrangedTypes closed.defined
  obtain ⟨typesClosed, ownClosed⟩ := arrangedDraft_closed order closed
  obtain ⟨added, collected, recollects, nothing⟩ :=
    Draft.collect_of_closed (arrangedDraft order schema) rfl typesClosed ownClosed
  have sorted : schema.sort order = .ok _ :=
    (sort_eq_ok_iff unique).mpr ⟨closed.resolvable, _, collected, recollects, rfl⟩
  have uniqueAll := recollects.unique ((nodup_arrangedTypes order).mpr (nodup_definedTypes unique))
  rw [List.map_append] at uniqueAll
  have unlisted : ∀ type ∈ added, type.name ∉ (schema.arrangedTypes order).map NamedType.name :=
    fun type mem listed =>
      List.disjoint_of_nodup_append uniqueAll listed (List.mem_map_of_mem mem)
  refine ⟨added, sorted, ?_, uniqueAll.of_append_right, ?_, fun described =>
    nothing (sameNames.mpr described)⟩
  · intro type mem
    exact ⟨recollects.standard type (by simp [mem]) (unlisted type mem),
      fun listed => unlisted type mem (sameNames.mpr listed)⟩
  · rintro rfl
    exact sameNames.mp (by simpa using recollects.describes)

/-- The index of a schema with known types is its types. -/
theorem index_withTypes_arranged (defined : ∀ entry ∈ schema.index, ∃ type, entry = .defined type)
    (added : List NamedType) :
    ((arrangedDraft order schema).withTypes (schema.arrangedTypes order ++ added)).index =
      (order.sort Entry.name schema.index).map (Entry.arranged order) ++ added.map .defined := by
  rw [← map_defined_arrangedTypes defined, ← List.map_append]
  rfl

/-- In the sorted copy of a closed schema every collection is the stable sort of the matching
collection of the schema: the index, the directives, and within them, except within
introspection types, all that `NamedType.arranged` and `Directive.arranged` sort. Behind the
sorted index stand only standard types that the schema does not hold, and none of them if it
holds the type by which schemas describe themselves. -/
theorem sort_arranges_collections (closed : schema.Closed) (unique : schema.typeNames.Nodup) :
    ∃ sorted added, schema.sort order = .ok sorted ∧
      sorted.index = (order.sort Entry.name schema.index).map (Entry.arranged order) ++
        added.map .defined ∧
      sorted.directives =
        (order.sort Directive.name schema.directives).map (Directive.arranged order) ∧
      (∀ type ∈ added, type ∈ Standard.types ∧ type.name ∉ schema.typeNames) ∧
      (added.map NamedType.name).Nodup ∧
      (added = [] ↔ Text.ofString "__Schema" ∈ schema.typeNames) := by
  obtain ⟨added, sorted, standard, uniqueAdded, nothing⟩ :=
    sort_of_closed order closed unique
  exact ⟨_, added, sorted, index_withTypes_arranged closed.defined added, rfl, standard,
    uniqueAdded, nothing⟩

/-- Sorted by the length of names, the types of `starter` and their parts stand where the
stable sort puts them. -/
theorem sort_arranges_starter : starter.Closed ∧ starter.typeNames.Nodup ∧
    ∃ sorted added, starter.sort .byLength = .ok sorted ∧
      sorted.index =
        (NameOrder.byLength.sort Entry.name starter.index).map (Entry.arranged .byLength) ++
          added.map .defined ∧
      sorted.directives =
        (NameOrder.byLength.sort Directive.name starter.directives).map
          (Directive.arranged .byLength) ∧
      (∀ type ∈ added, type ∈ Standard.types ∧ type.name ∉ starter.typeNames) ∧
      (added.map NamedType.name).Nodup ∧
      (added = [] ↔ Text.ofString "__Schema" ∈ starter.typeNames) :=
  ⟨starter_closed, starter_hasUniqueNames.index,
    sort_arranges_collections starter_closed starter_hasUniqueNames.index⟩

/-- The schema `starter`, from whose index the type that describes schemas was taken out. -/
def undescribed : Schema :=
  { starter with
    index := starter.index.filter fun entry => entry.name ≠ Text.ofString "__Schema" }

/-- Nothing refers to the type that was taken out, so that everything that `undescribed` refers
to is in its index. -/
theorem undescribed_closed : undescribed.Closed where
  defined := fun entry mem => starter_closed.defined entry (List.mem_filter.mp mem).1
  types := by decide +kernel
  directives := by decide +kernel
  roots := by
    intro name mem
    have known : ∀ name ∈ undescribed.roots.filterMap id,
        name ∈ undescribed.typeNames := by decide +kernel
    exact known name (by simpa using mem)

/-- Closed schemas are not always sorted into nothing but their own types: the type that
describes schemas comes back into the index of the sorted copy. -/
theorem sort_extends_undescribed : undescribed.Closed ∧ undescribed.typeNames.Nodup ∧
    ∃ sorted, undescribed.sort .byCodePoint = .ok sorted ∧
      sorted.index ≠ (NameOrder.byCodePoint.sort Entry.name undescribed.index).map
        (Entry.arranged .byCodePoint) := by
  have unique : undescribed.typeNames.Nodup := by decide +kernel
  obtain ⟨added, sorted, -, -, nothing⟩ :=
    sort_of_closed .byCodePoint undescribed_closed unique
  refine ⟨undescribed_closed, unique, _, sorted, ?_⟩
  intro sameIndex
  rw [index_withTypes_arranged undescribed_closed.defined] at sameIndex
  have sameLength := congrArg List.length sameIndex
  simp only [List.length_map, List.length_append] at sameLength
  have noneAdded : added = [] := List.eq_nil_of_length_eq_zero (by omega)
  have unlisted : Text.ofString "__Schema" ∉ undescribed.typeNames := by decide +kernel
  exact unlisted (nothing.mp noneAdded)

end SchemaOrder.Schema
