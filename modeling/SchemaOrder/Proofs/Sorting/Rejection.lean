import SchemaOrder.Proofs.Sorting.SortedCopy
import SchemaOrder.Session

/-!
# Schemas that cannot be sorted

Sorting may fail for two reasons: an entry of the index is of no kind, or a reference leads
to a name that the index does not have. `sort_rejects_iff` says of every schema, however its
index was tampered with, which of the two it is and which entry or name is reported, in the order
of `lookups`. Nothing else can go wrong: no replacement ever misses a part, and no name is refused.
-/

namespace SchemaOrder

namespace Schema

section Firsts

variable (order : NameOrder)

/-- The first entry of the sorted index that is of no kind. -/
def firstKindless? (schema : Schema) : Option Text :=
  ((order.sort Entry.name schema.index).find? fun entry => entry.type?.isNone).map Entry.name

/-- The first name that sorting looks up and that the index does not have. -/
def firstUnknown? (schema : Schema) : Option Text :=
  (schema.lookups order).find? fun name => !schema.typeNames.contains name

end Firsts

/-- Whether a schema holds a reference to a name, within whatever lists and refusals of null:
in a type of the index that is no introspection type, in an argument of a directive, or as the
type that serves an operation. -/
def Requires (schema : Schema) (name : Text) : Prop :=
  (∃ type ∈ schema.definedTypes, isIntrospectionType type.name = false ∧
      name ∈ type.references) ∨
    (∃ directive ∈ schema.directives, name ∈ directive.references) ∨ some name ∈ schema.roots

end Schema

namespace Sorter

open Schema Outcome

variable {order : NameOrder}

/-- Of several entries of no kind the first one is reported. -/
theorem mapM_typeOf_of_kindless {entries : List Entry} {entry : Entry}
    (first : entries.find? (fun entry => entry.type?.isNone) = some entry) :
    entries.mapM typeOf = .error (.unexpectedKind entry.name) := by
  induction entries with
  | nil => cases first
  | cons head tail inductionHypothesis =>
      rw [List.mapM_cons]
      cases head with
      | kindless name =>
          cases first
          rfl
      | defined type =>
          rw [inductionHypothesis first]
          rfl

/-- The entries of an index without entries of no kind are types. -/
theorem firstKindless?_eq_none_iff {schema : Schema} :
    schema.firstKindless? order = none ↔ ∀ entry ∈ schema.index, ∃ type, entry = .defined type := by
  simp only [firstKindless?, Option.map_eq_none_iff, List.find?_eq_none, NameOrder.mem_sort]
  refine forall₂_congr fun entry _ => ?_
  cases entry <;> simp [Entry.type?]

/-- The draft of the sorted copy is not made where an entry of the index is of no kind, and the
first such entry is reported. -/
theorem sortedDraft_of_kindless {schema : Schema} {name : Text}
    (first : schema.firstKindless? order = some name) :
    sortedDraft order schema = .error (.unexpectedKind name) := by
  obtain ⟨entry, isFirst, rfl⟩ := Option.map_eq_some_iff.mp first
  rw [sortedDraft, sortedTypes, mapM_typeOf_of_kindless isFirst]
  rfl

end Sorter

namespace Schema

open Sorter Outcome

variable {order : NameOrder} {schema : Schema}

/-- Sorting looks up exactly the names to which the schema holds references that count. -/
theorem mem_lookups {name : Text} : name ∈ schema.lookups order ↔ schema.Requires name := by
  simp [lookups, Requires, NamedType.mem_lookups, Directive.mem_lookups]

/-- The first unknown name is one that is looked up and is not in the index. -/
theorem firstUnknown?_eq_none_iff :
    schema.firstUnknown? order = none ↔
      ∀ name, schema.Requires name → name ∈ schema.typeNames := by
  simp [firstUnknown?, mem_lookups]

/-- What sorting comes to: the first entry of no kind is reported, and otherwise the first name
that is unknown; where there is neither, there is a sorted copy. -/
theorem sort_outcome (unique : (schema.definedTypes.map NamedType.name).Nodup) :
    match schema.firstKindless? order, schema.firstUnknown? order with
    | some name, _ => schema.sort order = .error (.unexpectedKind name)
    | none, some name => schema.sort order = .error (.unknownType name)
    | none, none => ∃ sorted, schema.sort order = .ok sorted := by
  cases kindless : schema.firstKindless? order with
  | some name =>
      rw [sort, sortedDraft_of_kindless kindless]
      rfl
  | none =>
      have defined := firstKindless?_eq_none_iff.mp kindless
      have sameNames : schema.firstUnknown? order = (schema.lookups order).find? fun name =>
          !((sortedIndex order schema).map Target.name).contains name := by
        unfold firstUnknown?
        congr 1
        funext name
        simp only [List.contains_eq_mem, mem_names_sortedIndex defined]
      cases unknown : schema.firstUnknown? order with
      | some name =>
          rw [sameNames] at unknown
          rw [sort, sortedDraft_eq_guarded unique defined, guarded, unknown]
          rfl
      | none =>
          have resolvable : schema.Resolvable := (resolvable_iff order defined).mpr <| by
            simpa [firstUnknown?] using unknown
          obtain ⟨types, collected, -⟩ := Draft.collect_recollects (arrangedDraft order schema) rfl
          exact ⟨_,
            (sort_eq_assemble unique resolvable).trans (Draft.assemble_of_collect collected)⟩

/-- Sorting fails exactly on two kinds of schemas. Where an entry of the index is of no kind, the
first such entry in the order of names is reported. Otherwise, where a reference that counts
leads to a name that the index does not have, the first such name on the way along the sorted
parts is reported; references of introspection types do not count. In all other cases there is a
sorted copy, and no replacement ever misses a part. -/
theorem sort_rejects_iff (unique : (schema.definedTypes.map NamedType.name).Nodup) :
    ((∃ name, schema.sort order = .error (.unexpectedKind name)) ↔
        ∃ entry ∈ schema.index, entry.type? = none) ∧
      (∀ name, schema.sort order = .error (.unexpectedKind name) ↔
        schema.firstKindless? order = some name) ∧
      ((∃ name, schema.sort order = .error (.unknownType name)) ↔
        (∀ entry ∈ schema.index, entry.type? ≠ none) ∧
          ∃ name, schema.Requires name ∧ name ∉ schema.typeNames) ∧
      (∀ name, schema.sort order = .error (.unknownType name) ↔
        schema.firstKindless? order = none ∧ schema.firstUnknown? order = some name) ∧
      ((∃ sorted, schema.sort order = .ok sorted) ↔
        schema.firstKindless? order = none ∧ schema.firstUnknown? order = none) ∧
      ∀ name, schema.sort order ≠ .error (.absentPart name) := by
  have noneKindless : schema.firstKindless? order = none ↔
      ∀ entry ∈ schema.index, entry.type? ≠ none := by
    rw [firstKindless?_eq_none_iff]
    refine forall₂_congr fun entry _ => ?_
    cases entry <;> simp [Entry.type?]
  have noneUnknown : schema.firstUnknown? order = none ↔
      ¬ ∃ name, schema.Requires name ∧ name ∉ schema.typeNames := by
    rw [firstUnknown?_eq_none_iff]
    push Not
    rfl
  have someKindless : (∃ entry ∈ schema.index, entry.type? = none) ↔
      ¬ schema.firstKindless? order = none := by
    rw [noneKindless]
    push Not
    rfl
  have outcome := @sort_outcome order schema unique
  rw [someKindless, ← noneKindless, ← not_not (a := ∃ name, schema.Requires name ∧ _),
    ← noneUnknown]
  cases kindless : schema.firstKindless? order with
  | some name =>
      rw [kindless] at outcome
      simp [outcome, eq_comm]
  | none =>
      cases unknown : schema.firstUnknown? order with
      | some name =>
          rw [kindless, unknown] at outcome
          simp [outcome, eq_comm]
      | none =>
          rw [kindless, unknown] at outcome
          obtain ⟨sorted, sorts⟩ := outcome
          simp [sorts]

/-- Taking an entry out of the index adds no type to it. -/
theorem definedTypes_sublist_of_removeEntry {name : Text} {changed : Schema}
    (removed : schema.removeEntry name = .ok changed) :
    changed.definedTypes.Sublist schema.definedTypes := by
  unfold removeEntry at removed
  split at removed
  · cases removed
    exact List.filter_sublist.filterMap _
  · cases removed

/-- An entry of no kind that is put into the index adds no type to it, and never has the name of
an introspection type. -/
theorem definedTypes_sublist_of_addKindless {name : Text} {changed : Schema}
    (added : schema.addKindless name = .ok changed) :
    changed.definedTypes.Sublist schema.definedTypes ∧ isIntrospectionType name = false := by
  have inserted : ∀ entries : List Entry,
      ((Named.insert Entry.name (.kindless name) entries).filterMap Entry.type?).Sublist
        (entries.filterMap Entry.type?) := by
    intro entries
    induction entries with
    | nil => exact List.Sublist.refl _
    | cons head tail inductionHypothesis =>
        unfold Named.insert
        split
        · exact (List.sublist_cons_self head tail).filterMap _
        · cases head with
          | defined type => exact inductionHypothesis.cons_cons type
          | kindless other => exact inductionHypothesis
  obtain ⟨_, fresh, ⟨⟩⟩ := bind_eq_ok_iff.mp added
  refine ⟨inserted schema.index, ?_⟩
  unfold checkFreshName at fresh
  split at fresh
  · cases fresh
  · rename_i ordinary
    simp only [isStandardType, Bool.or_eq_true, not_or, Bool.not_eq_true] at ordinary
    exact ordinary.2

/-- The schema `starter`, from whose index a type that an argument refers to and a type that
only introspection types refer to were taken out. -/
def pruned : Schema :=
  { starter with
    index := starter.index.filter fun entry =>
      entry.name ≠ Text.ofString "Shade" ∧ entry.name ≠ Text.ofString "__Field" }

/-- The only name that `pruned` refers to and does not have is that of the input object. -/
theorem eq_shade_of_pruned_requires {name : Text} (required : pruned.Requires name)
    (unknown : name ∉ pruned.typeNames) : name = Text.ofString "Shade" := by
  have types : ∀ type ∈ pruned.definedTypes, isIntrospectionType type.name = false →
      ∀ name ∈ type.references, name ∉ pruned.typeNames → name = Text.ofString "Shade" := by
    decide +kernel
  have directives : ∀ directive ∈ pruned.directives, ∀ name ∈ directive.references,
      name ∈ pruned.typeNames := by decide +kernel
  have roots : ∀ root ∈ pruned.roots, ∀ name ∈ root, name ∈ pruned.typeNames := by decide +kernel
  rcases required with ⟨type, mem, ordinary, nameMem⟩ | ⟨directive, mem, nameMem⟩ | isRoot
  · exact types type mem ordinary name nameMem unknown
  · exact absurd (directives directive mem name nameMem) unknown
  · exact absurd (roots (some name) isRoot name rfl) unknown

/-- Sorting `pruned` by the length of names reports the type that the argument refers to, and not
the one that only introspection types refer to. -/
theorem sort_rejects_pruned : (pruned.definedTypes.map NamedType.name).Nodup ∧
    pruned.sort .byLength = .error (.unknownType (Text.ofString "Shade")) := by
  have unique : (pruned.definedTypes.map NamedType.name).Nodup := by decide +kernel
  obtain ⟨-, -, someUnknown, reported, -⟩ := @sort_rejects_iff .byLength pruned unique
  have required : pruned.Requires (Text.ofString "Shade") :=
    .inl (by decide +kernel : ∃ type ∈ pruned.definedTypes,
      isIntrospectionType type.name = false ∧ Text.ofString "Shade" ∈ type.references)
  obtain ⟨name, fails⟩ :=
    someUnknown.mpr ⟨by decide +kernel, _, required, by decide +kernel⟩
  have first := ((reported name).mp fails).2
  have unknown : name ∉ pruned.typeNames := by simpa using List.find?_some first
  rw [eq_shade_of_pruned_requires (mem_lookups.mp (List.mem_of_find?_eq_some first)) unknown]
    at fails
  exact ⟨unique, fails⟩

end Schema

end SchemaOrder
