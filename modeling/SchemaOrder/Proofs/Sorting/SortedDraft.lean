import SchemaOrder.Order.Sort
import SchemaOrder.Proofs.Collections
import SchemaOrder.Proofs.Outcome
import SchemaOrder.Proofs.Schema.Links
import SchemaOrder.Proofs.Sorting.Arranged

/-!
# The draft of the sorted copy

Looking up a reference in the index of replacements links it to the replacement or fails, so the two
passes of sorting together come to this: `sortedDraft_eq_guarded` says that the draft of the sorted
copy exists exactly if the index has every name that is looked up, and then lists the objects of the
arranged types, linked to each other; otherwise the first name that is missing is reported. Every
function of the sorter has one equation, which says what it looks up and in what order; the order of
the whole is `lookups`.
-/

namespace SchemaOrder

namespace Schema

section Lookups

variable (order : NameOrder)

/-- The names that a field's own type and then its sorted arguments lead to. -/
def Field.lookups (field : Field) : List Text :=
  field.type.base ::
    (order.sort InputValue.name field.arguments).map fun argument => argument.type.base

/-- The names that a body leads to, as sorting comes to them: the fields in their order before
the interfaces in theirs. -/
def Body.lookups : Body → List Text
  | .object interfaces fields | .interface interfaces fields =>
    (order.sort Field.name fields).flatMap (Field.lookups order) ++ order.sortNames interfaces
  | .union members => order.sortNames members
  | .inputObject fields _ =>
    (order.sort InputValue.name fields).map fun field => field.type.base
  | .scalar _ | .enum _ => []

/-- The names that a type leads to, as sorting comes to them. Those of introspection types are
never looked up. -/
def NamedType.lookups (type : NamedType) : List Text :=
  if isIntrospectionType type.name then [] else type.body.lookups order

/-- The names that the sorted arguments of a directive lead to. -/
def Directive.lookups (directive : Directive) : List Text :=
  (order.sort InputValue.name directive.arguments).map fun argument => argument.type.base

/-- The names that sorting looks up, in the order in which it does: those of the sorted types,
those of the sorted directives, and the types that serve operations. -/
def lookups (schema : Schema) : List Text :=
  (order.sort NamedType.name schema.definedTypes).flatMap (NamedType.lookups order) ++
    ((order.sort Directive.name schema.directives).flatMap (Directive.lookups order) ++
      schema.roots.filterMap id)

variable {order}

/-- Sorting looks up the names that a body leads to. -/
theorem Body.mem_lookups {body : Body} {name : Text} :
    name ∈ body.lookups order ↔ name ∈ body.references := by
  cases body with
  | scalar | enum => rfl
  | object | interface =>
      simp [Body.lookups, Body.references, TypeDraft.fieldReferences, Field.lookups,
        NameOrder.sortNames, or_comm]
  | union => simp [Body.lookups, Body.references, NameOrder.sortNames]
  | inputObject => simp [Body.lookups, Body.references]

/-- Sorting looks up the names that a type leads to, if it is no introspection type. -/
theorem NamedType.mem_lookups {type : NamedType} {name : Text} : name ∈ type.lookups order ↔
    isIntrospectionType type.name = false ∧ name ∈ type.references := by
  unfold NamedType.lookups
  cases isIntrospectionType type.name <;> simp [NamedType.references, Body.mem_lookups]

/-- The references of a directive are looked up in another order, and no others. -/
theorem Directive.mem_lookups {directive : Directive} {name : Text} :
    name ∈ directive.lookups order ↔ name ∈ directive.references := by
  simp [Directive.lookups, Directive.references]

end Lookups

end Schema

namespace Sorter

open Schema Outcome

variable {α β : Type} {order : NameOrder} {schema : Schema} {index : List Target}
  {names names' : List Text} {value : α}

/-- What a name leads to where the index has it. -/
def leadsIn (index : List Target) (name : Text) : Target :=
  (Named.find? Target.name name index).getD (.inPlace name)

/-- A name leads to an object of that name. -/
theorem name_leadsIn (index : List Target) (name : Text) : (leadsIn index name).name = name := by
  unfold leadsIn
  cases found : Named.find? Target.name name index with
  | none => rfl
  | some target => exact (Named.of_find?_eq_some found).2

/-- A name of the index leads to an object of the index. -/
theorem leadsIn_mem {name : Text} (mem : name ∈ index.map Target.name) :
    leadsIn index name ∈ index := by
  obtain ⟨target, found⟩ := Option.isSome_iff_exists.mp (Named.isSome_find?_iff.mpr mem)
  rw [leadsIn, found]
  exact (Named.of_find?_eq_some found).1

/-- Where the names of an index are unique, an object of the index is what its name leads to. -/
theorem leadsIn_of_mem (unique : (index.map Target.name).Nodup) {target : Target}
    (mem : target ∈ index) : leadsIn index target.name = target :=
  List.inj_on_of_nodup_map unique (leadsIn_mem (List.mem_map_of_mem mem)) mem
    (name_leadsIn index target.name)

/-- A value that is given where the index has all of some names. Otherwise the first name that
it does not have is reported. -/
def guarded (index : List Target) (names : List Text) (value : α) : Except SortFault α :=
  match names.find? fun name => !(index.map Target.name).contains name with
  | some name => .error (.unknownType name)
  | none => .ok value

/-- A guarded value is given exactly if the index has all the names. -/
theorem guarded_eq_ok_iff {result : α} : guarded index names value = .ok result ↔
    (∀ name ∈ names, name ∈ index.map Target.name) ∧ result = value := by
  unfold guarded
  cases found : names.find? fun name => !(index.map Target.name).contains name with
  | some name =>
      have unknown : name ∉ index.map Target.name := by simpa using List.find?_some found
      simp only [reduceCtorEq, false_iff, not_and]
      exact fun known => absurd (known name (List.mem_of_find?_eq_some found)) unknown
  | none =>
      have known : ∀ name ∈ names, name ∈ index.map Target.name := by
        simpa using List.find?_eq_none.mp found
      simp only [Except.ok.injEq, eq_comm, and_iff_right known]

/-- Names that are looked up one after the other are reported one after the other. -/
theorem guarded_bind {next : α → Except SortFault β} {result : β}
    (step : next value = guarded index names' result) :
    (guarded index names value >>= next) = guarded index (names ++ names') result := by
  unfold guarded at *
  rw [List.find?_append]
  cases names.find? fun name => !(index.map Target.name).contains name with
  | some name => rfl
  | none => exact step

/-- What is made of a value does not change what is looked up for it. -/
theorem map_guarded (change : α → β) :
    (guarded index names value).map change = guarded index names (change value) := by
  unfold guarded
  split <;> rfl

/-- What is made of a value at the end does not change what is looked up for it. -/
theorem guarded_bind_pure (change : α → β) :
    (guarded index names value >>= fun value => pure (change value)) =
      guarded index names (change value) := by
  unfold guarded
  split <;> rfl

/-- Computations that look up names for every thing look them up thing by thing. -/
theorem mapM_guarded {compute : α → Except SortFault β} {lookups : α → List Text}
    {result : α → β} {things : List α}
    (each : ∀ thing, compute thing = guarded index (lookups thing) (result thing)) :
    things.mapM compute = guarded index (things.flatMap lookups) (things.map result) := by
  induction things with
  | nil => rfl
  | cons head tail inductionHypothesis =>
      rw [List.mapM_cons, each head, inductionHypothesis, List.flatMap_cons, List.map_cons]
      apply guarded_bind
      exact guarded_bind_pure fun results => result head :: results

/-- A name is looked up, and leads to what the index has of it. -/
theorem replaceName_eq (name : Text) :
    replaceName index name = guarded index [name] (leadsIn index name) := by
  unfold replaceName leadsIn
  cases found : Named.find? Target.name name index with
  | some target =>
      have known : name ∈ index.map Target.name :=
        Named.isSome_find?_iff.mp (Option.isSome_iff_exists.mpr ⟨target, found⟩)
      exact (guarded_eq_ok_iff.mpr ⟨List.forall_mem_singleton.mpr known, rfl⟩).symm
  | none =>
      have unknown : name ∉ index.map Target.name := fun mem => by
        simpa [found] using Named.isSome_find?_iff.mpr mem
      unfold guarded
      rw [List.find?_cons_of_pos (by simpa using unknown)]

/-- A reference is looked up by the name inside it, at whatever depth. -/
theorem replaceReference_eq (reference : TypeReference) :
    replaceReference index reference =
      guarded index [reference.base] (reference.linked (leadsIn index)) := by
  induction reference with
  | named name => rw [replaceReference, replaceName_eq, map_guarded]; rfl
  | list inner inductionHypothesis | nonNull inner inductionHypothesis =>
      rw [replaceReference, inductionHypothesis, map_guarded]; rfl

/-- The type of an operation is looked up where there is one. -/
theorem replaceRoot_eq (root : Option Text) :
    replaceRoot index root = guarded index root.toList (root.map (leadsIn index)) := by
  cases root with
  | none => rfl
  | some name => rw [replaceRoot, replaceName_eq, map_guarded]; rfl

/-- Arguments are looked up in their new order, and then they are linked. -/
theorem sortInputs_eq (inputs : List InputValue) :
    sortInputs order index inputs =
      guarded index ((order.sort InputValue.name inputs).map fun input => input.type.base)
        ((order.sort InputValue.name inputs).map (InputValue.linked (leadsIn index))) := by
  have each : ∀ input : InputValue,
      (do return { input.linked .inOriginal with type := ← replaceReference index input.type }) =
        guarded index [input.type.base] (input.linked (leadsIn index)) := by
    intro input
    rw [replaceReference_eq]
    exact guarded_bind_pure fun type => { input.linked .inOriginal with type }
  rw [sortInputs, mapM_guarded each, ← List.map_eq_flatMap]

/-- Of a field its own type is looked up before its arguments. -/
theorem sortFields_eq (fields : List Field) :
    sortFields order index fields =
      guarded index ((order.sort Field.name fields).flatMap (Field.lookups order))
        ((arrangedFields order fields).map (Field.linked (leadsIn index))) := by
  rw [arrangedFields, List.map_map]
  apply mapM_guarded
  intro field
  rw [replaceReference_eq]
  apply guarded_bind
  rw [sortInputs_eq]
  exact guarded_bind_pure fun arguments =>
    { field.linked .inOriginal with type := field.type.linked (leadsIn index), arguments }

/-- So are references by name. -/
theorem sortReferences_eq (references : List Text) :
    sortReferences order index references =
      guarded index (order.sortNames references)
        ((order.sortNames references).map (leadsIn index)) := by
  rw [sortReferences, mapM_guarded replaceName_eq, ← List.map_eq_flatMap, List.map_id']

/-- The parts of a body that hold references, as the table lists them. -/
def partsOf (leads : Text → Target) : Body → Option SortedParts
  | .object interfaces fields | .interface interfaces fields =>
    some (.composite (interfaces.map leads) (fields.map (Field.linked leads)))
  | .union members => some (.union (members.map leads))
  | .inputObject fields _ => some (.inputObject (fields.map (InputValue.linked leads)))
  | .scalar _ | .enum _ => none

/-- The parts of an arranged type that hold references, if the type has a replacement. -/
def arrangedParts (order : NameOrder) (leads : Text → Target) (type : NamedType) :
    Option SortedParts :=
  if isIntrospectionType type.name then none else partsOf leads (type.body.arranged order)

/-- Of a type its fields are looked up before its interfaces, and nothing of an introspection
type. -/
theorem sortParts_eq (type : NamedType) :
    sortParts order index type =
      guarded index (type.lookups order) (arrangedParts order (leadsIn index) type) := by
  unfold sortParts NamedType.lookups arrangedParts
  cases isIntrospectionType type.name with
  | true => rfl
  | false =>
      simp only [Bool.false_eq_true, if_false]
      cases type.body with
      | scalar | enum => rfl
      | object interfaces fields | interface interfaces fields =>
          simp only [sortFields_eq, Body.lookups]
          apply guarded_bind
          rw [sortReferences_eq]
          exact guarded_bind_pure fun interfaces => some (SortedParts.composite interfaces _)
      | union members =>
          simp only [sortReferences_eq]
          exact guarded_bind_pure fun members => some (SortedParts.union members)
      | inputObject fields oneOf =>
          simp only [sortInputs_eq]
          exact guarded_bind_pure fun fields => some (SortedParts.inputObject fields)

/-- The row of a type in the table, if it has one. -/
def rowOf (order : NameOrder) (leads : Text → Target) (type : NamedType) :
    Option (Text × SortedParts) :=
  (arrangedParts order leads type).map fun parts => (type.name, parts)

/-- The table has a row for every type with parts. -/
theorem partTable_eq (types : List NamedType) :
    partTable order index types =
      guarded index (types.flatMap (NamedType.lookups order))
        (types.filterMap (rowOf order (leadsIn index))) := by
  have each : ∀ type : NamedType,
      (do return (← sortParts order index type).map fun parts => (type.name, parts)) =
        guarded index (type.lookups order) (rowOf order (leadsIn index) type) := by
    intro type
    rw [sortParts_eq]
    exact guarded_bind_pure (Option.map fun parts => (type.name, parts))
  rw [partTable, mapM_guarded each]
  have rows : (types.map (rowOf order (leadsIn index))).filterMap id =
      types.filterMap (rowOf order (leadsIn index)) := by
    rw [List.filterMap_map]
    rfl
  rw [← rows]
  exact guarded_bind_pure (List.filterMap id)

/-- A directive looks up the references of its arguments, and then they are linked. -/
theorem sortDirective_eq (directive : Directive) :
    sortDirective order index directive =
      guarded index (directive.lookups order)
        ((directive.arranged order).linked (leadsIn index)) := by
  rw [sortDirective, sortInputs_eq]
  exact guarded_bind_pure fun arguments =>
    { directive.linked .inOriginal with
      locations := order.sortNames directive.locations
      arguments }

/-- Where names are unique, the row found under the name of a type is its own. -/
theorem find?_row (order : NameOrder) (leads : Text → Target) {types : List NamedType}
    (unique : (types.map NamedType.name).Nodup)
    {type : NamedType} (mem : type ∈ types) :
    Named.find? Prod.fst type.name (types.filterMap (rowOf order leads)) =
      rowOf order leads type := by
  have nameOfRow : ∀ {other : NamedType} {row : Text × SortedParts},
      rowOf order leads other = some row → row.1 = other.name := by
    intro other row isRow
    obtain ⟨parts, -, rfl⟩ := Option.map_eq_some_iff.mp isRow
    rfl
  rw [Named.find?, List.find?_filterMap]
  cases found : types.find? fun other =>
      (rowOf order leads other).any fun row => decide (row.1 = type.name) with
  | none =>
      cases ownRow : rowOf order leads type with
      | none => rfl
      | some row =>
          have missed := List.find?_eq_none.mp found type mem
          simp [ownRow, nameOfRow ownRow] at missed
  | some other =>
      have matched := List.find?_some found
      obtain ⟨row, isRow, sameName⟩ := (Option.any_eq_true _ _).mp matched
      have names : other.name = type.name :=
        (nameOfRow isRow).symm.trans (of_decide_eq_true sameName)
      have same : other = type :=
        List.inj_on_of_nodup_map unique (List.mem_of_find?_eq_some found) mem names
      rw [same]
      rfl

/-- The object that a type becomes in the sorted copy. -/
def arrangedObject (order : NameOrder) (leads : Text → Target) (type : NamedType) :
    TypeObject SortFault :=
  if isIntrospectionType type.name then .ofLibrary type
  else .ofType leads (targetOf type) (type.arranged order)

/-- Where names are unique, the replacement of a type is the object of the arranged type: every part
that it takes from the table is there, and is its own. -/
theorem replacement_eq_arrangedObject (leads : Text → Target) {types : List NamedType}
    (unique : (types.map NamedType.name).Nodup) {type : NamedType} (mem : type ∈ types) :
    replacement order (types.filterMap (rowOf order leads)) type =
      arrangedObject order leads type := by
  have row := find?_row order leads unique mem
  unfold replacement arrangedObject
  cases introspection : isIntrospectionType type.name with
  | true => rfl
  | false =>
      rw [NamedType.arranged_of_not_introspection introspection]
      obtain ⟨name, description, body⟩ := type
      simp only [rowOf, arrangedParts, introspection, Bool.false_eq_true, if_false] at row ⊢
      cases body with
      | scalar | enum => rfl
      | object | interface =>
          simp only [Body.arranged, partsOf, Option.map_some] at row
          simp [TypeObject.ofType, Body.arranged, deferredFields, deferredInterfaces, row]
      | union =>
          simp only [Body.arranged, partsOf, Option.map_some] at row
          simp [TypeObject.ofType, Body.arranged, deferredMembers, row]
      | inputObject =>
          simp only [Body.arranged, partsOf, Option.map_some] at row
          simp [TypeObject.ofType, Body.arranged, deferredInputs, row]

/-- Entries are types one by one exactly when all of them are of kinds. -/
theorem mapM_typeOf_eq_ok_iff {entries : List Entry} {types : List NamedType} :
    entries.mapM typeOf = .ok types ↔ entries = types.map .defined := by
  induction entries generalizing types with
  | nil => simp [pure, Except.pure, eq_comm]
  | cons head tail inductionHypothesis =>
      simp only [List.mapM_cons, bind_eq_ok_iff, pure_eq_ok_iff, inductionHypothesis]
      constructor
      · rintro ⟨type, isType, others, rfl, rfl⟩
        cases head <;> simp_all [typeOf]
      · intro split
        cases types with
        | nil => simp at split
        | cons type others =>
            obtain ⟨rfl, rfl⟩ := List.cons.inj split
            exact ⟨type, rfl, others, rfl, rfl⟩

/-- The types of a schema are sorted, if all entries of the index are of kinds. -/
theorem sortedTypes_eq_ok_iff {types : List NamedType} :
    sortedTypes order schema = .ok types ↔
      (∀ entry ∈ schema.index, ∃ type, entry = .defined type) ∧
        types = order.sort NamedType.name schema.definedTypes := by
  have sortDefined : ∀ types : List NamedType,
      (order.sort NamedType.name types).map Entry.defined =
        order.sort Entry.name (types.map Entry.defined) :=
    fun _ => NameOrder.map_sort fun _ _ => rfl
  have injective : Function.Injective Entry.defined := fun _ _ => Entry.defined.inj
  unfold sortedTypes
  rw [mapM_typeOf_eq_ok_iff]
  constructor
  · intro sorted
    have defined : ∀ entry ∈ schema.index, ∃ type, entry = .defined type := by
      intro entry mem
      have inSorted : entry ∈ types.map Entry.defined :=
        sorted ▸ NameOrder.mem_sort.mpr mem
      obtain ⟨type, -, rfl⟩ := List.mem_map.mp inSorted
      exact ⟨type, rfl⟩
    rw [index_eq_map_definedTypes defined, ← sortDefined] at sorted
    exact ⟨defined, (List.map_injective_iff.mpr injective sorted).symm⟩
  · rintro ⟨defined, rfl⟩
    rw [sortDefined, ← index_eq_map_definedTypes defined]

/-- The index of replacements. -/
def sortedIndex (order : NameOrder) (schema : Schema) : List Target :=
  (order.sort NamedType.name schema.definedTypes).map targetOf

/-- The object that stands for a type has its name. -/
@[simp] theorem name_targetOf (type : NamedType) : (targetOf type).name = type.name := by
  unfold targetOf
  split <;> rfl

/-- The names of the index of replacements are those of the types. -/
theorem map_name_sortedIndex : (sortedIndex order schema).map Target.name =
    (order.sort NamedType.name schema.definedTypes).map NamedType.name := by
  rw [sortedIndex, List.map_map]
  exact List.map_congr_left fun type _ => name_targetOf type

/-- The index has the names of the types of the schema. -/
theorem mem_names_sortedIndex (defined : ∀ entry ∈ schema.index, ∃ type, entry = .defined type)
    {name : Text} :
    name ∈ (sortedIndex order schema).map Target.name ↔ name ∈ schema.typeNames := by
  rw [map_name_sortedIndex, typeNames_eq_map_definedTypes defined]
  simp

/-- The draft of the objects of which a schema's sorted copy is constructed. -/
def arrangedObjects (order : NameOrder) (schema : Schema) : ObjectDraft SortFault where
  description := schema.description
  query := schema.query.map (leadsIn (sortedIndex order schema))
  mutation := schema.mutation.map (leadsIn (sortedIndex order schema))
  subscription := schema.subscription.map (leadsIn (sortedIndex order schema))
  directives := (schema.arrangedDirectives order).map
    (Directive.linked (leadsIn (sortedIndex order schema)))
  objects := (order.sort NamedType.name schema.definedTypes).map
    (arrangedObject order (leadsIn (sortedIndex order schema)))
  originals := schema.types
  isTrusted := schema.validation.isSome

/-- Where all entries of the index are types with different names, the draft of the sorted copy
is made of the arranged types, once every reference is looked up. -/
theorem sortedDraft_eq_guarded (unique : (schema.definedTypes.map NamedType.name).Nodup)
    (defined : ∀ entry ∈ schema.index, ∃ type, entry = .defined type) :
    sortedDraft order schema =
      guarded (sortedIndex order schema) (schema.lookups order) (arrangedObjects order schema) := by
  have uniqueTypes :
      ((order.sort NamedType.name schema.definedTypes).map NamedType.name).Nodup :=
    NameOrder.nodup_map_sort.mpr unique
  have replacements : (order.sort NamedType.name schema.definedTypes).map (replacement order
      ((order.sort NamedType.name schema.definedTypes).filterMap
        (rowOf order (leadsIn (sortedIndex order schema))))) =
      (arrangedObjects order schema).objects :=
    List.map_congr_left fun type mem => replacement_eq_arrangedObject _ uniqueTypes mem
  have operations : schema.roots.filterMap id =
      schema.query.toList ++ (schema.mutation.toList ++ schema.subscription.toList) := by
    cases hquery : schema.query <;> cases hmutation : schema.mutation <;>
      cases hsubscription : schema.subscription <;>
      simp [roots, hquery, hmutation, hsubscription]
  rw [sortedDraft, sortedTypes_eq_ok_iff.mpr ⟨defined, rfl⟩]
  simp only [partTable_eq, mapM_guarded sortDirective_eq, replaceRoot_eq]
  rw [lookups, operations]
  apply guarded_bind
  apply guarded_bind
  apply guarded_bind
  apply guarded_bind
  rw [guarded_bind_pure]
  unfold arrangedObjects arrangedDirectives
  rw [List.map_map]
  exact congrArg (guarded (sortedIndex order schema) _) (congrArg (ObjectDraft.mk _ _ _ _ _ · _ _)
    replacements)

/-- Where all entries of the index are types, sorting looks up names of the index only exactly if
the schema is resolvable. -/
theorem resolvable_iff (order : NameOrder)
    (defined : ∀ entry ∈ schema.index, ∃ type, entry = .defined type) :
    schema.Resolvable ↔ ∀ name ∈ schema.lookups order, name ∈ schema.typeNames := by
  simp only [lookups, List.mem_append, List.mem_flatMap, NameOrder.mem_sort,
    NamedType.mem_lookups, Directive.mem_lookups, List.mem_filterMap, id_eq, exists_eq_right]
  constructor
  · rintro resolvable name
      (⟨type, mem, ordinary, isReference⟩ | ⟨directive, mem, isReference⟩ | isRoot)
    · exact resolvable.types type mem ordinary name isReference
    · exact resolvable.directives directive mem name isReference
    · exact resolvable.roots name isRoot
  · intro known
    exact {
      defined
      types := fun type mem ordinary name isReference =>
        known name (.inl ⟨type, mem, ordinary, isReference⟩)
      directives := fun directive mem name isReference =>
        known name (.inr (.inl ⟨directive, mem, isReference⟩))
      roots := fun name isRoot => known name (.inr (.inr isRoot)) }

/-- Where names are unique, the draft of the sorted copy is made exactly of resolvable schemas, and
is made of their arranged types. -/
theorem sortedDraft_eq_ok_iff (unique : (schema.definedTypes.map NamedType.name).Nodup)
    {draft : ObjectDraft SortFault} : sortedDraft order schema = .ok draft ↔
      schema.Resolvable ∧ draft = arrangedObjects order schema := by
  have whenDefined (defined : ∀ entry ∈ schema.index, ∃ type, entry = .defined type) :
      sortedDraft order schema = .ok draft ↔
        schema.Resolvable ∧ draft = arrangedObjects order schema := by
    rw [sortedDraft_eq_guarded unique defined, guarded_eq_ok_iff, resolvable_iff order defined]
    simp only [mem_names_sortedIndex defined]
  constructor
  · intro drafted
    obtain ⟨types, sorted, -⟩ := bind_eq_ok_iff.mp drafted
    exact (whenDefined (sortedTypes_eq_ok_iff.mp sorted).1).mp drafted
  · intro isArranged
    exact (whenDefined isArranged.1.defined).mpr isArranged

end Sorter

end SchemaOrder
