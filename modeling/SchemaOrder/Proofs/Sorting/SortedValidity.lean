import SchemaOrder.Proofs.Schema.Validity
import SchemaOrder.Proofs.Sorting.Untampered

/-!
# Sorting and the rules

Sorting neither breaks a rule nor mends a breach: what the rules ask of a type, of a field or of a
directive does not depend on the order of any collection, and whether an input object needs itself
does not either. `violations_sort_eq_nil_iff` says so of every intact schema and every order.
-/

namespace SchemaOrder.NameOrder

variable {α : Type} {order : NameOrder}

/-- A name leads to the same thing in a sorted collection: of several things with one name sorting
leaves the first one in front. -/
theorem find?_sort (order : NameOrder) (name : α → Text) (wanted : Text) (things : List α) :
    Named.find? name wanted (order.sort name things) = Named.find? name wanted things := by
  have allLevel : order.InOrder name (things.filter fun thing => name thing = wanted) := by
    apply List.pairwise_of_forall_mem_list
    intro first firstMem second secondMem
    rw [of_decide_eq_true (List.mem_filter.mp firstMem).2,
      of_decide_eq_true (List.mem_filter.mp secondMem).2]
    exact isAtMost_of_isLevel (order.isLevel_self wanted) (order.isLevel_self wanted)
  rw [Named.find?, Named.find?, ← List.head?_filter, ← List.head?_filter, filter_sort,
    sort_eq_self allLevel]

/-- A sorted collection is empty only if the collection is. -/
@[simp] theorem isEmpty_sort (order : NameOrder) (name : α → Text) (things : List α) :
    (order.sort name things).isEmpty = things.isEmpty :=
  (sort_perm order name things).isEmpty_eq

end SchemaOrder.NameOrder

namespace SchemaOrder.Schema

open Rules

variable {order : NameOrder} {schema sorted : Schema}

/-- A rule has nothing to say exactly if its condition does not hold. -/
theorem violationIf_eq_nil_iff {condition : Bool} {violation : Violation} :
    violationIf condition violation = [] ↔ condition = false := by
  cases condition <;> simp [violationIf]

/-- A type that is arranged is of the same kind. -/
@[simp] theorem NamedType.kind_arranged (type : NamedType) :
    (type.arranged order).kind = type.kind := by
  unfold NamedType.arranged
  split
  · rfl
  · obtain ⟨name, description, body⟩ := type
    cases body <;> rfl

/-- A type that is arranged implements the same interfaces. -/
theorem NamedType.mem_interfaces_arranged {type : NamedType} {name : Text} :
    name ∈ (type.arranged order).interfaces ↔ name ∈ type.interfaces := by
  unfold NamedType.arranged
  split
  · rfl
  · obtain ⟨typeName, description, body⟩ := type
    cases body <;> simp [NamedType.interfaces, Body.arranged, NameOrder.sortNames]

/-- The objects that implement an interface. -/
theorem mem_implementingObjects {name interfaceName : Text} :
    name ∈ schema.implementingObjects interfaceName ↔ ∃ type ∈ schema.types,
      type.kind = .object ∧ interfaceName ∈ type.interfaces ∧ type.name = name := by
  rw [implementingObjects, List.mem_flatMap]
  refine exists_congr fun type => and_congr_right fun _ => ?_
  obtain ⟨typeName, description, body⟩ := type
  cases body <;> simp [NamedType.kind, Body.kind, NamedType.interfaces, eq_comm (a := name)]

/-- The interfaces that implement an interface. -/
theorem mem_implementingInterfaces {name interfaceName : Text} :
    name ∈ schema.implementingInterfaces interfaceName ↔ ∃ type ∈ schema.types,
      type.kind = .interface ∧ interfaceName ∈ type.interfaces ∧ type.name = name := by
  rw [implementingInterfaces, List.mem_flatMap]
  refine exists_congr fun type => and_congr_right fun _ => ?_
  obtain ⟨typeName, description, body⟩ := type
  cases body <;> simp [NamedType.kind, Body.kind, NamedType.interfaces, eq_comm (a := name)]

/-- The fields of a type that is arranged are arranged. -/
theorem NamedType.fields_arranged {type : NamedType}
    (ordinary : isIntrospectionType type.name = false) :
    (type.arranged order).fields = arrangedFields order type.fields := by
  rw [arranged_of_not_introspection ordinary]
  obtain ⟨name, description, body⟩ := type
  cases body <;> simp [NamedType.fields, Body.arranged, arrangedFields]

/-- A field of a type that is arranged is the arranged field of its name. -/
theorem find?_arrangedFields {wanted : Text} {fields : List Field} :
    Named.find? Field.name wanted (arrangedFields order fields) =
      (Named.find? Field.name wanted fields).map (Field.arranged order) := by
  rw [← NameOrder.find?_sort order Field.name wanted fields, arrangedFields, Named.find?,
    List.find?_map]
  rfl

/-- The interfaces of an interface that a type implements are all implemented exactly if they are
when both are arranged. -/
theorem checkAncestors_eq_nil_iff {type interfaceType : NamedType} :
    checkAncestors (type.arranged order) (interfaceType.arranged order) = [] ↔
      checkAncestors type interfaceType = [] := by
  simp only [checkAncestors, List.flatMap_eq_nil_iff, violationIf_eq_nil_iff,
    NamedType.mem_interfaces_arranged, List.contains_eq_mem]

/-- An interface that a type implements is in order: it is another type, an interface, whose own
interfaces the type implements, and whose promises it keeps. -/
def KeepsInterface (schema : Schema) (type : NamedType) (name : Text) : Prop :=
  ∃ interfaceType, schema.type? name = some interfaceType ∧ interfaceType.kind = .interface ∧
    name ≠ type.name ∧ checkAncestors type interfaceType = [] ∧
    checkPromises schema type interfaceType = []

/-- Names that are different from each other and from those that were seen. -/
def Fresh (seen names : List Text) : Prop :=
  names.Nodup ∧ ∀ name ∈ names, name ∉ seen

/-- Whether names are fresh can be asked one after the other. -/
theorem fresh_cons_iff {seen tail : List Text} {head : Text} :
    Fresh seen (head :: tail) ↔ head ∉ seen ∧ Fresh (head :: seen) tail := by
  rw [Fresh, Fresh, List.nodup_cons, List.forall_mem_cons]
  simp only [List.mem_cons, not_or]
  constructor
  · rintro ⟨⟨notInTail, unique⟩, notSeen, fresh⟩
    exact ⟨notSeen, unique, fun name mem => ⟨fun same => notInTail (same ▸ mem), fresh name mem⟩⟩
  · rintro ⟨notSeen, unique, fresh⟩
    exact ⟨⟨fun mem => (fresh head mem).1 rfl, unique⟩, notSeen, fun name mem => (fresh name mem).2⟩

/-- Sorted names are fresh if the names are. -/
theorem fresh_sort_iff {seen names : List Text} :
    Fresh seen (order.sort id names) ↔ Fresh seen names := by
  rw [Fresh, Fresh, (NameOrder.sort_perm order id names).nodup_iff]
  simp only [NameOrder.mem_sort]

/-- The interfaces of a type are in order if they are different ones, and each is in order. -/
theorem checkInterfacesFrom_eq_nil_iff {type : NamedType} {seen names : List Text} :
    checkInterfacesFrom schema type seen names = [] ↔
      Fresh seen names ∧ ∀ name ∈ names, KeepsInterface schema type name := by
  induction names generalizing seen with
  | nil => simp [checkInterfacesFrom, Fresh]
  | cons head tail inductionHypothesis =>
      rw [checkInterfacesFrom, fresh_cons_iff, List.forall_mem_cons]
      cases isType : schema.type? head with
      | none => simp [KeepsInterface, isType]
      | some interfaceType =>
          by_cases isInterface : interfaceType.kind = .interface
          · by_cases isSeen : head ∈ seen
            · simp [isInterface, isSeen]
            · simp only [isInterface, isSeen, ne_eq, not_true_eq_false, if_false,
                List.contains_eq_mem, decide_false, Bool.false_eq_true, List.append_eq_nil_iff,
                violationIf_eq_nil_iff, inductionHypothesis, KeepsInterface, isType,
                Option.some.injEq, exists_eq_left', decide_eq_false_iff_not, not_false_eq_true,
                true_and]
              tauto
          · simp [isInterface, KeepsInterface, isType]

/-- The members of a union are in order if they are different ones, and all objects. -/
theorem checkMembersFrom_eq_nil_iff {owner : Text} {seen names : List Text} :
    checkMembersFrom schema owner seen names = [] ↔
      Fresh seen names ∧ ∀ name ∈ names, schema.kind? name = some .object := by
  induction names generalizing seen with
  | nil => simp [checkMembersFrom, Fresh]
  | cons head tail inductionHypothesis =>
      rw [checkMembersFrom, fresh_cons_iff, List.forall_mem_cons]
      by_cases isObject : schema.kind? head = some .object
      · by_cases isSeen : head ∈ seen
        · simp [isObject, isSeen]
        · simp [isObject, isSeen, inductionHypothesis]
      · simp [isObject]

/-- The introspection types of an intact schema are objects without interfaces, and enums. -/
theorem Intact.introspection_plain (intact : schema.Intact) {type : NamedType}
    (mem : type ∈ schema.types) (introspection : isIntrospectionType type.name = true) :
    type.interfaces = [] ∧ (type.kind = .object ∨ type.kind = .enum) := by
  have isKnown : ∀ name ∈ introspectionTypes, (Standard.type? name).isSome := by decide +kernel
  have plain : ∀ type ∈ Standard.types, isIntrospectionType type.name = true →
      type.interfaces = [] ∧ (type.kind = .object ∨ type.kind = .enum) := by decide +kernel
  obtain ⟨standard, isStandard⟩ := Option.isSome_iff_exists.mp
    (isKnown type.name (by simpa [isIntrospectionType] using introspection))
  obtain rfl := intact.standard type (intact.definedTypes_eq ▸ mem) standard isStandard
  exact plain type (Standard.type?_eq_some isStandard).1 introspection

/-- The interfaces of an intact schema are no introspection types. -/
theorem Intact.ordinary_of_interface (intact : schema.Intact) {type : NamedType}
    (mem : type ∈ schema.types) (isInterface : type.kind = .interface) :
    isIntrospectionType type.name = false := by
  cases introspection : isIntrospectionType type.name with
  | false => rfl
  | true =>
      obtain ⟨-, isObject | isEnum⟩ := intact.introspection_plain mem introspection
      · rw [isInterface] at isObject
        cases isObject
      · rw [isInterface] at isEnum
        cases isEnum

/-- One schema is the other one with everything arranged. -/
structure IsArranged (order : NameOrder) (schema sorted : Schema) : Prop where
  query : sorted.query = schema.query
  mutation : sorted.mutation = schema.mutation
  subscription : sorted.subscription = schema.subscription
  directives : sorted.directives = schema.arrangedDirectives order
  types : sorted.types = (order.sort NamedType.name schema.types).map (NamedType.arranged order)
  type? : ∀ name, sorted.type? name = (schema.type? name).map (NamedType.arranged order)

/-- The sorted copy of an intact schema is the schema with everything arranged. -/
theorem Intact.isArranged (intact : schema.Intact) (sorts : schema.sort order = .ok sorted) :
    IsArranged order schema sorted := by
  obtain ⟨added, isSorted, -, -, nothing⟩ := sort_of_closed order intact.closed intact.unique
  have sortedIntact := intact.sort sorts
  rw [nothing.mpr intact.describes, List.append_nil, sorts] at isSorted
  cases isSorted
  have sameTypes : ((Sorter.arrangedDraft order schema).withTypes
      (schema.arrangedTypes order)).types =
        (order.sort NamedType.name schema.types).map (NamedType.arranged order) := by
    simp [Draft.withTypes, arrangedTypes, intact.definedTypes_eq]
  refine ⟨rfl, rfl, rfl, rfl, sameTypes, fun name => ?_⟩
  ext type
  rw [sortedIntact.type?_eq_some_iff, sameTypes, Option.map_eq_some_iff, List.mem_map]
  constructor
  · rintro ⟨⟨original, mem, rfl⟩, rfl⟩
    refine ⟨original, intact.type?_eq_some_iff.mpr ⟨NameOrder.mem_sort.mp mem, ?_⟩, rfl⟩
    exact (NamedType.name_arranged original).symm
  · rintro ⟨original, found, rfl⟩
    obtain ⟨mem, rfl⟩ := intact.type?_eq_some_iff.mp found
    exact ⟨⟨original, NameOrder.mem_sort.mpr mem, rfl⟩, NamedType.name_arranged original⟩

namespace IsArranged

variable (arranged : IsArranged order schema sorted)
include arranged

/-- Names lead to types of the same kinds. -/
theorem kind?_eq (name : Text) : sorted.kind? name = schema.kind? name := by
  rw [kind?, kind?, arranged.type?, Option.map_map]
  congr 1
  funext type
  exact NamedType.kind_arranged type

/-- References lead to types of the same kinds. -/
theorem leadsTo_eq (type : TypeReference) (admitted : TypeKind → Bool) :
    leadsTo sorted type admitted = leadsTo schema type admitted := by
  rw [leadsTo, leadsTo, arranged.kind?_eq]

/-- The same is said about the operations. -/
theorem checkRoots_eq : checkRoots sorted = checkRoots schema := by
  have each : ∀ operation isOptional root,
      checkRoot sorted operation isOptional root = checkRoot schema operation isOptional root := by
    intro operation isOptional root
    unfold checkRoot
    simp only [arranged.kind?_eq]
  rw [checkRoots, checkRoots, arranged.query, arranged.mutation, arranged.subscription]
  simp only [each]

/-- Arguments are in order if they are when sorted. -/
theorem checkArguments_eq_nil_iff {owner : Text} {arguments : List InputValue} :
    checkArguments sorted owner (order.sort InputValue.name arguments) = [] ↔
      checkArguments schema owner arguments = [] := by
  simp only [checkArguments, List.flatMap_eq_nil_iff, NameOrder.mem_sort, arranged.leadsTo_eq]

/-- A directive is in order if it is when arranged. -/
theorem checkDirective_eq_nil_iff {directive : Directive} :
    checkDirective sorted (directive.arranged order) = [] ↔
      checkDirective schema directive = [] := by
  simp only [checkDirective, Directive.arranged, List.append_eq_nil_iff,
    arranged.checkArguments_eq_nil_iff, NameOrder.sortNames, NameOrder.isEmpty_sort]

/-- The same objects implement an interface. -/
theorem mem_implementingObjects_iff {name interfaceName : Text} :
    name ∈ sorted.implementingObjects interfaceName ↔
      name ∈ schema.implementingObjects interfaceName := by
  simp only [mem_implementingObjects, arranged.types, List.mem_map, NameOrder.mem_sort,
    exists_exists_and_eq_and, NamedType.kind_arranged, NamedType.mem_interfaces_arranged,
    NamedType.name_arranged]

/-- The same interfaces implement an interface. -/
theorem mem_implementingInterfaces_iff {name interfaceName : Text} :
    name ∈ sorted.implementingInterfaces interfaceName ↔
      name ∈ schema.implementingInterfaces interfaceName := by
  simp only [mem_implementingInterfaces, arranged.types, List.mem_map, NameOrder.mem_sort,
    exists_exists_and_eq_and, NamedType.kind_arranged, NamedType.mem_interfaces_arranged,
    NamedType.name_arranged]

/-- The same names stand for a name. -/
theorem isNamedSubtype_eq (name super : Text) :
    isNamedSubtype sorted name super = isNamedSubtype schema name super := by
  unfold isNamedSubtype
  rw [arranged.type?]
  cases schema.type? super with
  | none => rfl
  | some type =>
      cases introspection : isIntrospectionType type.name with
      | true =>
          simp only [Option.map_some, NamedType.arranged_of_introspection introspection,
            List.contains_eq_mem, arranged.mem_implementingObjects_iff,
            arranged.mem_implementingInterfaces_iff, arranged.kind?_eq]
      | false =>
          rw [Option.map_some, NamedType.arranged_of_not_introspection introspection]
          obtain ⟨typeName, description, body⟩ := type
          cases body <;>
            simp only [Body.arranged, List.contains_eq_mem, arranged.mem_implementingObjects_iff,
              arranged.mem_implementingInterfaces_iff, arranged.kind?_eq, NameOrder.sortNames,
              NameOrder.mem_sort]

/-- The same references stand for a reference. -/
theorem isSubtype_eq (type super : TypeReference) :
    isSubtype sorted type super = isSubtype schema type super := by
  induction type, super using isSubtype.induct <;> simp_all [isSubtype, arranged.isNamedSubtype_eq]

/-- A field keeps the promise of another one exactly if it does when both are arranged. -/
theorem checkPromise_eq_nil_iff {owner interfaceName : Text} {field promised : Field} :
    checkPromise sorted owner interfaceName (field.arranged order) (promised.arranged order) = [] ↔
      checkPromise schema owner interfaceName field promised = [] := by
  simp only [checkPromise, Field.arranged, arranged.isSubtype_eq, NameOrder.find?_sort,
    List.append_eq_nil_iff, List.flatMap_eq_nil_iff, NameOrder.mem_sort]

/-- A type keeps the promises of an interface exactly if it does when both are arranged. -/
theorem checkPromises_eq_nil_iff {type interfaceType : NamedType}
    (ordinary : isIntrospectionType type.name = false)
    (ordinaryInterface : isIntrospectionType interfaceType.name = false) :
    checkPromises sorted (type.arranged order) (interfaceType.arranged order) = [] ↔
      checkPromises schema type interfaceType = [] := by
  rw [checkPromises, checkPromises, NamedType.fields_arranged ordinary,
    NamedType.fields_arranged ordinaryInterface, List.flatMap_eq_nil_iff, List.flatMap_eq_nil_iff,
    arrangedFields, List.forall_mem_map]
  simp only [NameOrder.mem_sort, Field.name_arranged, find?_arrangedFields,
    NamedType.name_arranged]
  refine forall₂_congr fun promised _ => ?_
  cases Named.find? Field.name promised.name type.fields with
  | none => simp
  | some field => exact arranged.checkPromise_eq_nil_iff

/-- An interface that a type implements is in order exactly if it is when the type is arranged. -/
theorem keepsInterface_iff (intact : schema.Intact) {type : NamedType}
    (ordinary : isIntrospectionType type.name = false) {name : Text} :
    KeepsInterface sorted (type.arranged order) name ↔ KeepsInterface schema type name := by
  rw [KeepsInterface, KeepsInterface, arranged.type?]
  cases isType : schema.type? name with
  | none => simp
  | some interfaceType =>
      have mem := (intact.type?_eq_some_iff.mp isType).1
      simp only [Option.map_some, Option.some.injEq, exists_eq_left', NamedType.kind_arranged,
        NamedType.name_arranged, checkAncestors_eq_nil_iff]
      refine and_congr_right fun isInterface => ?_
      rw [arranged.checkPromises_eq_nil_iff ordinary (intact.ordinary_of_interface mem isInterface)]

/-- The fields of a type are in order exactly if they are when it is arranged. -/
theorem checkFields_eq_nil_iff {type : NamedType} :
    checkFields sorted (type.arranged order) = [] ↔ checkFields schema type = [] := by
  cases introspection : isIntrospectionType type.name with
  | true =>
      rw [NamedType.arranged_of_introspection introspection]
      simp only [checkFields, checkArguments, arranged.leadsTo_eq]
  | false =>
      rw [checkFields, checkFields, NamedType.fields_arranged introspection,
        NamedType.name_arranged]
      simp only [List.append_eq_nil_iff, List.flatMap_eq_nil_iff, arrangedFields,
        List.isEmpty_map, NameOrder.isEmpty_sort, List.forall_mem_map, NameOrder.mem_sort,
        Field.arranged, arranged.leadsTo_eq, arranged.checkArguments_eq_nil_iff]

/-- An introspection type is in order exactly if it is in the schema with everything arranged. -/
theorem checkBody_of_introspection (intact : schema.Intact) {type : NamedType}
    (mem : type ∈ schema.types) (introspection : isIntrospectionType type.name = true) :
    checkBody sorted (type.arranged order) = [] ↔ checkBody schema type = [] := by
  have sameFields : checkFields sorted (type.arranged order) = [] ↔
      checkFields schema type = [] := arranged.checkFields_eq_nil_iff
  obtain ⟨noInterfaces, isPlain⟩ := intact.introspection_plain mem introspection
  rw [NamedType.arranged_of_introspection introspection] at sameFields ⊢
  obtain ⟨name, description, body⟩ := type
  cases body with
  | object interfaces fields =>
      obtain rfl : interfaces = [] := noInterfaces
      simpa only [checkBody, checkInterfacesFrom, List.append_nil] using sameFields
  | enum values => rfl
  | scalar | interface | union | inputObject =>
      rcases isPlain with isObject | isEnum
      · cases isObject
      · cases isEnum

/-- Any other type is in order exactly if it is when it is arranged. -/
theorem checkBody_of_ordinary (intact : schema.Intact) {type : NamedType}
    (ordinary : isIntrospectionType type.name = false) :
    checkBody sorted (type.arranged order) = [] ↔ checkBody schema type = [] := by
  have sameFields : checkFields sorted (type.arranged order) = [] ↔
      checkFields schema type = [] := arranged.checkFields_eq_nil_iff
  have isArranged : (type.arranged order).body = type.body.arranged order := by
    rw [NamedType.arranged_of_not_introspection ordinary]
  have sameInterfaces : ∀ interfaces,
      checkInterfacesFrom sorted (type.arranged order) [] (order.sortNames interfaces) = [] ↔
        checkInterfacesFrom schema type [] interfaces = [] := by
    intro interfaces
    simp only [checkInterfacesFrom_eq_nil_iff, fresh_sort_iff, NameOrder.sortNames,
      NameOrder.mem_sort, arranged.keepsInterface_iff intact ordinary]
  unfold checkBody
  rw [isArranged]
  cases type.body with
  | scalar => rfl
  | object interfaces fields | interface interfaces fields =>
      simp only [Body.arranged, List.append_eq_nil_iff, sameFields, sameInterfaces]
  | union members =>
      simp only [Body.arranged, List.append_eq_nil_iff, violationIf_eq_nil_iff,
        checkMembersFrom_eq_nil_iff, fresh_sort_iff, NameOrder.sortNames, NameOrder.mem_sort,
        NameOrder.isEmpty_sort, arranged.kind?_eq]
  | enum values =>
      simp only [Body.arranged, List.append_eq_nil_iff, violationIf_eq_nil_iff,
        List.flatMap_eq_nil_iff, NameOrder.mem_sort, NameOrder.isEmpty_sort]
  | inputObject fields oneOf =>
      simp only [Body.arranged, List.append_eq_nil_iff, violationIf_eq_nil_iff,
        List.flatMap_eq_nil_iff, NameOrder.mem_sort, NameOrder.isEmpty_sort, checkInputField,
        NamedType.name_arranged, arranged.leadsTo_eq]

/-- A type is in order exactly if it is when it is arranged. -/
theorem checkType_eq_nil_iff (intact : schema.Intact) {type : NamedType}
    (mem : type ∈ schema.types) :
    checkType sorted (type.arranged order) = [] ↔ checkType schema type = [] := by
  rw [checkType, checkType, List.append_eq_nil_iff, List.append_eq_nil_iff,
    NamedType.name_arranged]
  refine and_congr_right fun _ => ?_
  cases introspection : isIntrospectionType type.name with
  | true => exact arranged.checkBody_of_introspection intact mem introspection
  | false => exact arranged.checkBody_of_ordinary intact introspection

/-- The fields of an input object are sorted. -/
theorem inputFields?_eq (intact : schema.Intact) (name : Text) :
    sorted.inputFields? name =
      (schema.inputFields? name).map (order.sort InputValue.name) := by
  rw [inputFields?, inputFields?, arranged.type?]
  cases isType : schema.type? name with
  | none => rfl
  | some type =>
      have mem := (intact.type?_eq_some_iff.mp isType).1
      rw [Option.map_some, Option.map_some, Option.map_some]
      cases introspection : isIntrospectionType type.name with
      | true =>
          rw [NamedType.arranged_of_introspection introspection]
          obtain ⟨typeName, description, body⟩ := type
          cases body with
          | inputObject fields oneOf =>
              rcases (intact.introspection_plain mem introspection).2 with isObject | isEnum
              · cases isObject
              · cases isEnum
          | _ => rfl
      | false =>
          rw [NamedType.arranged_of_not_introspection introspection]
          obtain ⟨typeName, description, body⟩ := type
          cases body <;> rfl

/-- The same input objects need each other. -/
theorem needs_iff (intact : schema.Intact) {name next : Text} :
    sorted.Needs name next ↔ schema.Needs name next := by
  simp [Needs, arranged.inputFields?_eq intact]

/-- A schema keeps the rules exactly if it does with everything arranged. -/
theorem keepsRules_congr (intact : schema.Intact) : sorted.KeepsRules ↔ schema.KeepsRules := by
  have sameNeeds : sorted.Needs = schema.Needs := by
    funext name next
    exact propext (arranged.needs_iff intact)
  have sameTypes : (∀ type ∈ sorted.types, checkType sorted type = []) ↔
      ∀ type ∈ schema.types, checkType schema type = [] := by
    rw [arranged.types, List.forall_mem_map]
    simp only [NameOrder.mem_sort]
    exact forall₂_congr fun type mem => arranged.checkType_eq_nil_iff intact mem
  rw [keepsRules_iff, keepsRules_iff, sameTypes, arranged.checkRoots_eq, arranged.directives,
    WithoutCircles, WithoutCircles, sameNeeds, arrangedDirectives, List.forall_mem_map]
  simp only [NameOrder.mem_sort, arranged.checkDirective_eq_nil_iff]

end IsArranged

/-- Sorting neither breaks a rule nor mends a breach: validation finds nothing in the sorted copy
of an intact schema exactly if it finds nothing in the schema. -/
theorem Intact.violations_sort_eq_nil_iff (intact : schema.Intact)
    (sorts : schema.sort order = .ok sorted) :
    sorted.violations = [] ↔ schema.violations = [] := by
  rw [violations_eq_nil_iff (intact.sort sorts), violations_eq_nil_iff intact,
    (intact.isArranged sorts).keepsRules_congr intact]

end SchemaOrder.Schema
