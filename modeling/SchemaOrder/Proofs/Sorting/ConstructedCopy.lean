import Mathlib.Data.List.Find
import SchemaOrder.Proofs.Schema.Assembly
import SchemaOrder.Proofs.Schema.Webs
import SchemaOrder.Proofs.Sorting.SortedDraft

/-!
# Constructing the sorted copy

The sorted copy is constructed of type objects, and there may be two of a name: the one that the
sorter hands out, and the original. In the draft of a sorted copy no link leads to an original that
was replaced. `collect_arrangedObjects` says so of everything that can be reached from the draft, so
that the copy is what collecting by name makes of it (`construct_arrangedObjects`), and no name is
refused, as that of a single stray link would be (`ObjectDraft.construct_of_stray`).
-/

namespace SchemaOrder.Sorter

open Schema Outcome

variable {order : NameOrder} {schema : Schema}

/-- The draft of which a schema's sorted copy is made, by name. -/
def arrangedDraft (order : NameOrder) (schema : Schema) : Draft SortFault where
  description := schema.description
  query := schema.query
  mutation := schema.mutation
  subscription := schema.subscription
  directives := schema.arrangedDirectives order
  types := (schema.arrangedTypes order).map .ofType
  isTrusted := schema.validation.isSome

/-- The object that stands for a type belongs to the library exactly under a standard name. -/
theorem targetOf_eq_inLibrary_iff {type : NamedType} {name : Text} :
    targetOf type = .inLibrary name ↔ type.name = name ∧ isStandardType name = true := by
  constructor
  · intro same
    obtain rfl : type.name = name := (name_targetOf type).symm.trans (congrArg Target.name same)
    have owner := congrArg Target.owner same
    refine ⟨rfl, ?_⟩
    by_contra ordinary
    unfold targetOf at owner
    split at owner <;> simp [Target.inOriginal, Target.inPlace, Target.inLibrary, ordinary] at owner
  · rintro ⟨rfl, standard⟩
    unfold targetOf
    split <;> simp [Target.inOriginal, Target.inPlace, Target.inLibrary, standard]

/-- The object of an arranged type stands for the type. -/
theorem target_arrangedObject (leads : Text → Target) (type : NamedType) :
    (arrangedObject order leads type).target = targetOf type := by
  unfold arrangedObject
  cases introspection : isIntrospectionType type.name with
  | true =>
      refine (targetOf_eq_inLibrary_iff.mpr ⟨rfl, ?_⟩).symm
      rw [isStandardType, introspection, Bool.or_true]
  | false => rfl

/-- The object of an arranged type is the arranged type once owners are left out. -/
theorem unlinked_arrangedObject {leads : Text → Target} (names : ∀ name, (leads name).name = name)
    (type : NamedType) :
    (arrangedObject order leads type).unlinked = .ofType (type.arranged order) := by
  unfold arrangedObject
  cases introspection : isIntrospectionType type.name with
  | true =>
      rw [NamedType.arranged_of_introspection introspection]
      exact TypeObject.unlinked_ofType (fun _ => rfl) rfl
  | false =>
      exact TypeObject.unlinked_ofType names (by rw [name_targetOf, NamedType.name_arranged])

/-- The targets of the objects are the index. -/
theorem map_target_arrangedObjects :
    (arrangedObjects order schema).objects.map TypeObject.target = sortedIndex order schema := by
  rw [arrangedObjects, List.map_map]
  exact List.map_congr_left fun type _ => target_arrangedObject _ type

/-- An object of the index is found among the objects of the draft. -/
theorem find?_objects_ne_none {target : Target} (mem : target ∈ sortedIndex order schema) :
    ((arrangedObjects order schema).objects.find? fun object => object.target = target) ≠ none := by
  rw [← map_target_arrangedObjects] at mem
  obtain ⟨object, objectMem, sameTarget⟩ := List.mem_map.mp mem
  exact fun missed => List.find?_eq_none.mp missed object objectMem (decide_eq_true sameTarget)

/-- Once owners are left out, the draft of objects is the draft by name. -/
theorem unlinked_arrangedObjects :
    (arrangedObjects order schema).unlinked = arrangedDraft order schema := by
  have roots (root : Option Text) :
      (root.map (leadsIn (sortedIndex order schema))).map Target.name = root := by
    cases root with
    | none => rfl
    | some name => exact congrArg some (name_leadsIn _ name)
  have directives : (arrangedObjects order schema).directives.map LinkedDirective.unlinked =
      schema.arrangedDirectives order := by
    rw [arrangedObjects, List.map_map]
    exact (List.map_congr_left fun directive _ =>
      LinkedDirective.unlinked_linked (name_leadsIn _) directive).trans (List.map_id _)
  have types : (arrangedObjects order schema).objects.map TypeObject.unlinked =
      (schema.arrangedTypes order).map .ofType := by
    rw [arrangedObjects, arrangedTypes, List.map_map, List.map_map]
    exact List.map_congr_left fun type _ => unlinked_arrangedObject (name_leadsIn _) type
  rw [ObjectDraft.unlinked, directives, types]
  simp only [arrangedObjects, roots]
  rfl

/-- The draft of the sorted copy leads to what the index has under the names of the operations and
those in the directives, and to the type that describes schemas. -/
theorem of_mem_targets {target : Target} (mem : target ∈ (arrangedObjects order schema).targets) :
    (∃ name, (some name ∈ schema.roots ∨
        ∃ directive ∈ schema.directives, name ∈ directive.references) ∧
      target = leadsIn (sortedIndex order schema) name) ∨
    target = .inLibrary (Text.ofString "__Schema") := by
  have ofRoot {root : Option Text} (isRoot : root ∈ schema.roots)
      (isTarget : target ∈ root.map (leadsIn (sortedIndex order schema))) :
      ∃ name, some name ∈ schema.roots ∧ target = leadsIn (sortedIndex order schema) name := by
    obtain ⟨name, rfl, rfl⟩ := Option.map_eq_some_iff.mp isTarget
    exact ⟨name, isRoot, rfl⟩
  rcases List.mem_append.mp mem with own | describes
  · left
    rcases List.mem_append.mp own with isRoot | inDirective
    · obtain ⟨root, rootMem, isTarget⟩ := List.mem_filterMap.mp isRoot
      simp only [List.mem_cons, List.not_mem_nil, or_false] at rootMem
      have fromRoot : ∃ name, some name ∈ schema.roots ∧
          target = leadsIn (sortedIndex order schema) name := by
        rcases rootMem with rfl | rfl | rfl
        · exact ofRoot (by simp [roots]) isTarget
        · exact ofRoot (by simp [roots]) isTarget
        · exact ofRoot (by simp [roots]) isTarget
      obtain ⟨name, isName, leads⟩ := fromRoot
      exact ⟨name, .inl isName, leads⟩
    · obtain ⟨linked, linkedMem, targetMem⟩ := List.mem_flatMap.mp inDirective
      obtain ⟨arranged, arrangedMem, rfl⟩ := List.mem_map.mp linkedMem
      obtain ⟨directive, directiveMem, rfl⟩ := List.mem_map.mp arrangedMem
      rw [Directive.linked, inputTargets_linked] at targetMem
      obtain ⟨name, nameMem, rfl⟩ := List.mem_map.mp targetMem
      refine ⟨name, .inr ⟨directive, NameOrder.mem_sort.mp directiveMem, ?_⟩, rfl⟩
      simpa [Directive.references, Directive.arranged] using nameMem
  · exact .inr (List.mem_singleton.mp describes)

/-- The object that a name leads to in the draft of the sorted copy: the one that the index has of
it, or otherwise the library's. -/
def placeIn (index : List Target) (name : Text) : Target :=
  if name ∈ index.map Target.name then leadsIn index name else .inLibrary name

/-- A name of the index leads to what the index has of it. -/
theorem placeIn_of_mem {index : List Target} {name : Text} (mem : name ∈ index.map Target.name) :
    placeIn index name = leadsIn index name :=
  if_pos mem

/-- Any other name leads to what the library has of it. -/
theorem placeIn_of_not_mem {index : List Target} {name : Text}
    (notMem : name ∉ index.map Target.name) : placeIn index name = .inLibrary name :=
  if_neg notMem

/-- An object that a name leads to is in the index, or it is the library's. -/
theorem mem_or_eq_of_placed {index : List Target} {target : Target}
    (placed : placeIn index target.name = target) :
    target ∈ index ∨ target = .inLibrary target.name := by
  by_cases mem : target.name ∈ index.map Target.name
  · rw [placeIn_of_mem mem] at placed
    exact .inl (placed ▸ leadsIn_mem mem)
  · rw [placeIn_of_not_mem mem] at placed
    exact .inr placed.symm

section Unique

variable (unique : (schema.definedTypes.map NamedType.name).Nodup)
include unique

/-- The index has at most one object of a name. -/
theorem sortedIndex_unique : ((sortedIndex order schema).map Target.name).Nodup := by
  rw [map_name_sortedIndex]
  exact NameOrder.nodup_map_sort.mpr unique

/-- An object of the index is what its name leads to. -/
theorem placed_of_mem {target : Target} (mem : target ∈ sortedIndex order schema) :
    placeIn (sortedIndex order schema) target.name = target := by
  rw [placeIn_of_mem (List.mem_map_of_mem mem)]
  exact leadsIn_of_mem (sortedIndex_unique unique) mem

/-- A name leads to the same type in the draft of objects and in the draft by name. -/
theorem find?_of_placed {target : Target}
    (placed : placeIn (sortedIndex order schema) target.name = target) :
    (arrangedDraft order schema).find? target.name =
      ((arrangedObjects order schema).find? target).map TypeObject.unlinked := by
  have sameTest : ∀ object ∈ (arrangedObjects order schema).objects,
      decide (object.target = target) = decide (object.unlinked.name = target.name) := by
    intro object mem
    have isIndexed : object.target ∈ sortedIndex order schema :=
      map_target_arrangedObjects ▸ List.mem_map_of_mem mem
    refine decide_eq_decide.mpr ⟨fun same => congrArg Target.name same, fun sameName => ?_⟩
    have placedObject := placed_of_mem unique isIndexed
    rw [← placedObject, ← placed]
    exact congrArg _ sameName
  have listed : (arrangedDraft order schema).types.find? (fun type => type.name = target.name) =
      ((arrangedObjects order schema).objects.find? fun object => object.target = target).map
        TypeObject.unlinked := by
    rw [← unlinked_arrangedObjects, ObjectDraft.unlinked, List.find?_map]
    exact congrArg _ (List.find?_congr sameTest).symm
  unfold Draft.find? ObjectDraft.find?
  rw [listed]
  cases isListed : (arrangedObjects order schema).objects.find? fun object =>
      object.target = target with
  | some object => rfl
  | none =>
      have unlisted : target ∉ sortedIndex order schema :=
        fun mem => find?_objects_ne_none mem isListed
      obtain ⟨owner, name⟩ := target
      obtain ⟨⟩ := (mem_or_eq_of_placed placed).resolve_left unlisted
      dsimp only [Option.map_none, Target.inLibrary]
      rw [Option.map_map]
      congr 1
      funext type
      exact (TypeObject.unlinked_ofType (fun _ => rfl) rfl).symm

variable (order) in
/-- The draft by name is the image of the draft of objects. -/
def imaging : (arrangedObjects order schema).web.Image
    (Collected.web (arrangedDraft order schema).find?) where
  ofKey := Target.name
  ofThing := TypeObject.unlinked
  place := placeIn (sortedIndex order schema)
  listed := (sortedIndex order schema).map Target.name
  key_ofThing _ := rfl
  stages_ofThing := TypeObject.stages_unlinked
  find?_ofKey _ := find?_of_placed unique

/-- A name of the index leads to an object in its place. -/
theorem isIdleOrPlaced_leadsIn {name : Text}
    (mem : name ∈ (sortedIndex order schema).map Target.name) :
    (imaging order unique).IsIdleOrPlaced (leadsIn (sortedIndex order schema) name) :=
  .inl (placed_of_mem unique (leadsIn_mem mem))

/-- What an object of the library leads to is in its place, or is not there at all: the index may
have another object of the name only if the library has none. -/
theorem isIdleOrPlaced_inLibrary (name : Text) :
    (imaging order unique).IsIdleOrPlaced (.inLibrary name) := by
  by_cases mem : name ∈ (sortedIndex order schema).map Target.name
  · cases standard : isStandardType name with
    | true =>
        obtain ⟨target, isIndexed, rfl⟩ := List.mem_map.mp mem
        obtain ⟨type, -, rfl⟩ := List.mem_map.mp isIndexed
        have isLibrary : targetOf type = .inLibrary (targetOf type).name :=
          targetOf_eq_inLibrary_iff.mpr ⟨(name_targetOf type).symm, standard⟩
        rw [← isLibrary]
        exact .inl (placed_of_mem unique isIndexed)
    | false =>
        refine .inr ⟨?_, mem⟩
        have unlisted : ((arrangedObjects order schema).objects.find? fun object =>
            object.target = .inLibrary name) = none := by
          refine List.find?_eq_none.mpr fun object objectMem same => ?_
          have isIndexed : object.target ∈ sortedIndex order schema :=
            map_target_arrangedObjects ▸ List.mem_map_of_mem objectMem
          rw [of_decide_eq_true same] at isIndexed
          obtain ⟨type, -, isLibrary⟩ := List.mem_map.mp isIndexed
          exact absurd (targetOf_eq_inLibrary_iff.mp isLibrary).2 (by simp [standard])
        change (arrangedObjects order schema).find? (.inLibrary name) = none
        rw [ObjectDraft.find?, unlisted]
        simp [Target.inLibrary, isStandardType_eq_false_iff.mp standard]
  · exact .inl (placeIn_of_not_mem mem)

/-- The objects of the library lead to nothing but their likes. -/
theorem isSound_ofLibrary {type : NamedType}
    (placed : placeIn (sortedIndex order schema) type.name = .inLibrary type.name) :
    (imaging order unique).IsSound (.ofLibrary type) where
  placed := placed
  leads targets stage target mem := by
    obtain ⟨name, -, rfl⟩ := TypeObject.of_mem_stages_ofType stage mem
    exact isIdleOrPlaced_inLibrary unique name

/-- Where sorting can look up every reference, the objects of arranged types lead to objects in
their places. -/
theorem isSound_arrangedObject (resolvable : schema.Resolvable) {type : NamedType}
    (mem : type ∈ schema.definedTypes) : (imaging order unique).IsSound
      (arrangedObject order (leadsIn (sortedIndex order schema)) type) := by
  have isIndexed : targetOf type ∈ sortedIndex order schema :=
    List.mem_map_of_mem (NameOrder.mem_sort.mpr mem)
  have placed := placed_of_mem unique isIndexed
  unfold arrangedObject
  cases introspection : isIntrospectionType type.name with
  | true =>
      have isLibrary : targetOf type = .inLibrary type.name :=
        targetOf_eq_inLibrary_iff.mpr ⟨rfl, by rw [isStandardType, introspection, Bool.or_true]⟩
      exact isSound_ofLibrary unique (by rwa [isLibrary] at placed)
  | false =>
      refine ⟨placed, fun targets stage target targetMem => ?_⟩
      obtain ⟨name, nameMem, rfl⟩ := TypeObject.of_mem_stages_ofType stage targetMem
      refine isIdleOrPlaced_leadsIn unique ((mem_names_sortedIndex resolvable.defined).mpr ?_)
      exact resolvable.types type mem introspection name
        (NamedType.mem_references_arranged.mp nameMem)

/-- Where sorting can look up every reference, whatever is found in its place leads to objects in
their places. -/
theorem findsSound (resolvable : schema.Resolvable) : (imaging order unique).FindsSound := by
  intro target object placed found
  change placeIn (sortedIndex order schema) target.name = target at placed
  change (arrangedObjects order schema).find? target = some object at found
  unfold ObjectDraft.find? at found
  cases isListed : (arrangedObjects order schema).objects.find? fun object =>
      object.target = target with
  | some listed =>
      rw [isListed] at found
      obtain rfl := Option.some.inj found
      obtain ⟨type, mem, rfl⟩ := List.mem_map.mp (List.mem_of_find?_eq_some isListed)
      exact isSound_arrangedObject unique resolvable (NameOrder.mem_sort.mp mem)
  | none =>
      have unlisted : target ∉ sortedIndex order schema :=
        fun mem => find?_objects_ne_none mem isListed
      obtain ⟨owner, name⟩ := target
      obtain ⟨⟩ := (mem_or_eq_of_placed placed).resolve_left unlisted
      rw [isListed] at found
      obtain ⟨type, standard, rfl⟩ := Option.map_eq_some_iff.mp found
      obtain ⟨-, rfl⟩ := Standard.type?_eq_some standard
      exact isSound_ofLibrary unique placed

/-- Where sorting can look up every reference, what the draft itself leads to is in its place. -/
theorem isIdleOrPlaced_of_mem_targets (resolvable : schema.Resolvable) {target : Target}
    (mem : target ∈ (arrangedObjects order schema).targets) :
    (imaging order unique).IsIdleOrPlaced target := by
  rcases of_mem_targets mem with ⟨name, isOwn, rfl⟩ | rfl
  · exact isIdleOrPlaced_leadsIn unique
      ((mem_names_sortedIndex resolvable.defined).mpr (resolvable.own isOwn))
  · exact isIdleOrPlaced_inLibrary unique _

variable (order) in
/-- Where sorting can look up every reference, collecting the objects of the draft goes as
collecting by name. Every object is one that the index has or one of the library's: none is an
original that was replaced. -/
theorem collect_arrangedObjects (resolvable : schema.Resolvable) :
    ∃ (objects : List (TypeObject SortFault)) (types : List NamedType),
      (arrangedObjects order schema).collect = .ok objects ∧
        (arrangedDraft order schema).collect = .ok (types.map .ofType) ∧
        objects.map TypeObject.unlinked = types.map .ofType ∧
        (types.map NamedType.name).Nodup ∧
        ∀ object ∈ objects, object.target ∈ sortedIndex order schema ∨
          object.target = .inLibrary object.name := by
  obtain ⟨types, collected, recollects⟩ :=
    Draft.collect_recollects (arrangedDraft order schema) rfl
  have uniqueNames := (nodup_arrangedTypes order).mpr unique
  have sound : ∀ object ∈ (arrangedObjects order schema).objects,
      (imaging order unique).IsSound object := by
    intro object mem
    obtain ⟨type, typeMem, rfl⟩ := List.mem_map.mp mem
    exact isSound_arrangedObject unique resolvable (NameOrder.mem_sort.mp typeMem)
  have listed : (imaging order unique).listed =
      (arrangedObjects order schema).objects.map fun object => object.target.name := by
    change (sortedIndex order schema).map Target.name = _
    rw [← map_target_arrangedObjects, List.map_map]
    rfl
  have parallel : Parallel Eq _ (arrangedObjects order schema).collect
      ((Collected.web (arrangedDraft order schema).find?).collect _
        ((arrangedObjects order schema).objects.map TypeObject.unlinked)
        ((arrangedObjects order schema).targets.map Target.name)) :=
    Web.Image.collect (findsSound unique resolvable) _ sound
      (fun target mem => isIdleOrPlaced_of_mem_targets unique resolvable mem) listed
  have byName := (arrangedObjects order schema).collect_unlinked
  rw [unlinked_arrangedObjects] at byName
  rw [byName, collected] at parallel
  obtain ⟨objects, _, isCollected, same, isImage, areSound⟩ | ⟨_, _, -, impossible, -⟩ :=
    parallel.outcome
  · obtain rfl := Except.ok.inj same
    refine ⟨objects, types, isCollected, collected, isImage.symm, recollects.unique uniqueNames,
      fun object mem => mem_or_eq_of_placed (areSound object mem).placed⟩
  · cases impossible

/-- Where sorting can look up every reference, the copy is what assembling by name makes: no name is
refused. -/
theorem construct_arrangedObjects (resolvable : schema.Resolvable) :
    (arrangedObjects order schema).construct .repeatedType =
      (arrangedDraft order schema).assemble := by
  obtain ⟨objects, types, collected, byName, sameTypes, uniqueNames, -⟩ :=
    collect_arrangedObjects order unique resolvable
  have sameNames : objects.map TypeObject.name = types.map NamedType.name := by
    calc objects.map TypeObject.name
        = (objects.map TypeObject.unlinked).map TypeDraft.name := by rw [List.map_map]; rfl
      _ = types.map NamedType.name := by rw [sameTypes, List.map_map]; rfl
  rw [← unlinked_arrangedObjects, ← sameTypes] at byName
  rw [ObjectDraft.construct_eq_assemble collected (sameNames ▸ uniqueNames) byName,
    unlinked_arrangedObjects]

end Unique

end SchemaOrder.Sorter
