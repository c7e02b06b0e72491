import Mathlib.Tactic.MkIffOfInductiveProp
import SchemaOrder.Proofs.Sorting.SortedCopy
import SchemaOrder.Session

/-!
# The check and the sorter

The check compares neighbouring names in filtered collections, while sorting rearranges all
of them; this module ties the two together through the layout of a schema, which holds the
names of its collections and is said with the help of neither. `isSortedBy_iff_sameLayout`
says that a schema passes the check exactly when sorting leaves its layout as it is.
-/

namespace SchemaOrder.Schema

/-- The members of a union. -/
def NamedType.members (type : NamedType) : List Text :=
  match type.body with
  | .union members => members
  | _ => []

/-- The values of an enum. -/
def NamedType.values (type : NamedType) : List EnumValue :=
  match type.body with
  | .enum values => values
  | _ => []

/-- The fields of an input object. -/
def NamedType.inputFields (type : NamedType) : List InputValue :=
  match type.body with
  | .inputObject fields _ => fields
  | _ => []

/-- The names in the collections of a type, in their order. -/
structure TypeLayout where
  name : Text
  interfaces : List Text
  /-- The fields of an object or an interface, each with its arguments. -/
  fields : List (Text × List Text)
  members : List Text
  values : List Text
  inputFields : List Text
deriving DecidableEq

/-- The names in the collections of a directive, in their order. -/
structure DirectiveLayout where
  name : Text
  locations : List Text
  arguments : List Text
deriving DecidableEq

/-- The layout of a type. -/
def NamedType.layout (type : NamedType) : TypeLayout where
  name := type.name
  interfaces := type.interfaces
  fields := type.fields.map fun field => (field.name, field.arguments.map InputValue.name)
  members := type.members
  values := type.values.map EnumValue.name
  inputFields := type.inputFields.map InputValue.name

/-- The layout of a directive. -/
def Directive.layout (directive : Directive) : DirectiveLayout :=
  ⟨directive.name, directive.locations, directive.arguments.map InputValue.name⟩

/-- The types of the index that are neither introspection types nor standard scalars. -/
def userTypes (schema : Schema) : List NamedType :=
  schema.definedTypes.filter fun type =>
    !isIntrospectionType type.name && !isStandardScalar type.name

/-- The order of all that a user of a schema has named: the layouts of the types and of the
directives, in their order, standard ones left out. -/
def userLayout (schema : Schema) : List TypeLayout × List DirectiveLayout :=
  (schema.userTypes.map NamedType.layout, schema.userDirectives.map Directive.layout)

open Sorter

variable {order : NameOrder} {schema : Schema}

/-- All collections of a type are in order. -/
@[mk_iff]
structure TypeLayout.InOrder (order : NameOrder) (layout : TypeLayout) : Prop where
  interfaces : order.InOrder id layout.interfaces
  fields : order.InOrder Prod.fst layout.fields
  arguments : ∀ field ∈ layout.fields, order.InOrder id field.2
  members : order.InOrder id layout.members
  values : order.InOrder id layout.values
  inputFields : order.InOrder id layout.inputFields

/-- All collections of a directive are in order. -/
structure DirectiveLayout.InOrder (order : NameOrder) (layout : DirectiveLayout) : Prop where
  locations : order.InOrder id layout.locations
  arguments : order.InOrder id layout.arguments

/-- Types and directives are in order, and all their collections are. -/
structure LayoutInOrder (order : NameOrder)
    (layout : List TypeLayout × List DirectiveLayout) : Prop where
  types : order.InOrder TypeLayout.name layout.1
  directives : order.InOrder DirectiveLayout.name layout.2
  eachType : ∀ type ∈ layout.1, type.InOrder order
  eachDirective : ∀ directive ∈ layout.2, directive.InOrder order

/-- No things, or no names, are always in order. -/
@[simp] theorem inOrder_nil {α : Type} (name : α → Text) : order.InOrder name [] :=
  .nil

/-- The collections of a type that the check looks at are in order exactly when its layout
is. -/
theorem typeCollections_ordered_iff {type : NamedType} :
    (typeCollections type).all (fun collection => order.isOrdered collection.names) = true ↔
      type.layout.InOrder order := by
  obtain ⟨name, description, body⟩ := type
  rw [TypeLayout.inOrder_iff]
  cases body with
  | scalar =>
      simp [typeCollections, NamedType.layout, NamedType.interfaces, NamedType.fields,
        NamedType.members, NamedType.values, NamedType.inputFields]
  | object interfaces fields | interface interfaces fields =>
      have fieldsInOrder : order.InOrder Prod.fst (fields.map fun field =>
          (field.name, field.arguments.map InputValue.name)) ↔ order.InOrder Field.name fields :=
        List.pairwise_map
      simp [typeCollections, NamedType.layout, NamedType.interfaces, NamedType.fields,
        NamedType.members, NamedType.values, NamedType.inputFields, NameOrder.isOrdered_iff,
        NameOrder.inOrder_map_name, fieldsInOrder]
  | union | enum | inputObject =>
      simp [typeCollections, NamedType.layout, NamedType.interfaces, NamedType.fields,
        NamedType.members, NamedType.values, NamedType.inputFields, NameOrder.isOrdered_iff]

/-- The collections of a directive that the check looks at are in order exactly when its
layout is. -/
theorem directiveCollections_ordered_iff {directive : Directive} :
    (directiveCollections directive).all (fun collection => order.isOrdered collection.names) =
      true ↔ directive.layout.InOrder order := by
  simp only [directiveCollections, List.all_cons, List.all_nil, Bool.and_true, Bool.and_eq_true,
    NameOrder.isOrdered_iff]
  exact ⟨fun ⟨locations, arguments⟩ => ⟨locations, arguments⟩,
    fun inOrder => ⟨inOrder.locations, inOrder.arguments⟩⟩

/-- The entries that the check looks at are the types that a user has named. -/
theorem userEntries_eq_map_userTypes
    (defined : ∀ entry ∈ schema.index, ∃ type, entry = .defined type) :
    schema.userEntries = schema.userTypes.map .defined := by
  unfold userEntries userTypes
  rw [index_eq_map_definedTypes defined, List.filter_map]
  congr 1
  apply List.filter_congr
  intro type _
  simp [isStandardType, Entry.name, Bool.and_comm]

/-- A schema passes the check exactly when its layout is in order. -/
theorem isSorted_iff_layoutInOrder (order : NameOrder)
    (defined : ∀ entry ∈ schema.index, ∃ type, entry = .defined type) :
    schema.isSorted order = true ↔ LayoutInOrder order schema.userLayout := by
  have entries := userEntries_eq_map_userTypes defined
  have types : schema.userEntries.filterMap Entry.type? = schema.userTypes := by
    rw [entries, List.filterMap_map]
    exact List.filterMap_some
  have names : schema.userEntries.map Entry.name = schema.userTypes.map NamedType.name := by
    rw [entries, List.map_map]
    rfl
  have eachType : ∀ types : List NamedType, (types.flatMap typeCollections).all
      (fun collection => order.isOrdered collection.names) = true ↔
        ∀ type ∈ types, type.layout.InOrder order := by
    intro types
    simp only [List.all_flatMap, List.all_eq_true (l := types), typeCollections_ordered_iff]
  have eachDirective : ∀ directives : List Directive, (directives.flatMap directiveCollections).all
      (fun collection => order.isOrdered collection.names) = true ↔
        ∀ directive ∈ directives, directive.layout.InOrder order := by
    intro directives
    simp only [List.all_flatMap, List.all_eq_true (l := directives),
      directiveCollections_ordered_iff]
  unfold isSorted collections
  rw [types, names]
  simp only [List.all_cons, List.all_append, Bool.and_eq_true, NameOrder.isOrdered_iff,
    NameOrder.inOrder_map_name, eachType, eachDirective]
  constructor
  · rintro ⟨typesInOrder, directivesInOrder, directives, types⟩
    exact ⟨List.pairwise_map.mpr typesInOrder, List.pairwise_map.mpr directivesInOrder,
      List.forall_mem_map.mpr types, List.forall_mem_map.mpr directives⟩
  · rintro ⟨typesInOrder, directivesInOrder, types, directives⟩
    exact ⟨List.pairwise_map.mp typesInOrder, List.pairwise_map.mp directivesInOrder,
      List.forall_mem_map.mp directives, List.forall_mem_map.mp types⟩

/-- Arranged fields are in order, and so are their arguments. -/
theorem arrangedFields_inOrder (order : NameOrder) (fields : List Field) :
    order.InOrder Field.name (arrangedFields order fields) ∧
      ∀ field ∈ arrangedFields order fields, order.InOrder InputValue.name field.arguments := by
  constructor
  · exact List.pairwise_map.mpr (NameOrder.sort_inOrder order Field.name fields)
  · intro field mem
    obtain ⟨original, -, rfl⟩ := List.mem_map.mp mem
    exact NameOrder.sort_inOrder order InputValue.name original.arguments

/-- Fields that are in order, with their arguments, are left as they are. -/
theorem arrangedFields_eq_self {fields : List Field} (inOrder : order.InOrder Field.name fields)
    (arguments : ∀ field ∈ fields, order.InOrder InputValue.name field.arguments) :
    arrangedFields order fields = fields := by
  unfold arrangedFields
  rw [NameOrder.sort_eq_self inOrder]
  have each : ∀ field ∈ fields, field.arranged order = id field := by
    intro field mem
    simp [Field.arranged, NameOrder.sort_eq_self (arguments field mem)]
  rw [List.map_congr_left each, List.map_id]

/-- All collections of an arranged type are in order, unless it is an introspection type. -/
theorem NamedType.layout_arranged_inOrder {type : NamedType}
    (ordinary : isIntrospectionType type.name = false) :
    (type.arranged order).layout.InOrder order := by
  rw [NamedType.arranged_of_not_introspection ordinary, ← typeCollections_ordered_iff]
  obtain ⟨name, description, body⟩ := type
  have sortedNames : ∀ {α : Type} (name : α → Text) (things : List α),
      order.isOrdered ((order.sort name things).map name) = true := by
    intro α name things
    rw [NameOrder.isOrdered_iff, NameOrder.inOrder_map_name]
    exact NameOrder.sort_inOrder order name things
  have sortedReferences : ∀ names : List Text, order.isOrdered (order.sortNames names) = true := by
    intro names
    exact NameOrder.isOrdered_iff.mpr (NameOrder.sort_inOrder order id names)
  cases body with
  | scalar => rfl
  | object interfaces fields | interface interfaces fields =>
      obtain ⟨fieldsInOrder, argumentsInOrder⟩ := arrangedFields_inOrder order fields
      simp only [typeCollections, Body.arranged, List.all_cons, List.all_map, Bool.and_eq_true,
        List.all_eq_true, Function.comp_apply, NameOrder.isOrdered_iff, NameOrder.inOrder_map_name]
      exact ⟨NameOrder.sort_inOrder order id interfaces, fieldsInOrder, argumentsInOrder⟩
  | union members => simp [typeCollections, Body.arranged, sortedReferences]
  | enum values => simp [typeCollections, Body.arranged, sortedNames]
  | inputObject fields oneOf => simp [typeCollections, Body.arranged, sortedNames]

/-- All collections of an arranged directive are in order. -/
theorem Directive.layout_arranged_inOrder (directive : Directive) :
    (directive.arranged order).layout.InOrder order where
  locations := NameOrder.sort_inOrder order id directive.locations
  arguments := NameOrder.inOrder_map_name.mpr
    (NameOrder.sort_inOrder order InputValue.name directive.arguments)

/-- A type whose collections are in order is left as it is. -/
theorem NamedType.arranged_eq_self {type : NamedType} (inOrder : type.layout.InOrder order) :
    type.arranged order = type := by
  obtain ⟨name, description, body⟩ := type
  unfold NamedType.arranged
  split
  · rfl
  · have sameBody : body.arranged order = body := by
      cases body with
      | scalar => rfl
      | object interfaces fields | interface interfaces fields =>
          have fieldsInOrder : order.InOrder Field.name fields :=
            List.pairwise_map.mp inOrder.fields
          have argumentsInOrder : ∀ field ∈ fields,
              order.InOrder InputValue.name field.arguments := fun field mem =>
            NameOrder.inOrder_map_name.mp
              (inOrder.arguments (field.name, field.arguments.map InputValue.name)
                (List.mem_map_of_mem mem))
          have interfacesSame : order.sortNames interfaces = interfaces :=
            NameOrder.sort_eq_self inOrder.interfaces
          simp only [Body.arranged, interfacesSame,
            arrangedFields_eq_self fieldsInOrder argumentsInOrder]
      | union members =>
          exact congrArg Body.union (NameOrder.sort_eq_self inOrder.members)
      | enum values =>
          exact congrArg Body.enum
            (NameOrder.sort_eq_self (NameOrder.inOrder_map_name.mp inOrder.values))
      | inputObject fields oneOf =>
          exact congrArg (Body.inputObject · oneOf)
            (NameOrder.sort_eq_self (NameOrder.inOrder_map_name.mp inOrder.inputFields))
    rw [sameBody]

/-- A directive whose collections are in order is left as it is. -/
theorem Directive.arranged_eq_self {directive : Directive}
    (inOrder : directive.layout.InOrder order) : directive.arranged order = directive := by
  have locations : order.sortNames directive.locations = directive.locations :=
    NameOrder.sort_eq_self inOrder.locations
  have arguments := NameOrder.sort_eq_self (NameOrder.inOrder_map_name.mp inOrder.arguments)
  simp only [Directive.arranged, locations, arguments]

/-- Every standard type is left out of the layout. -/
theorem not_userType_of_standard :
    ∀ type ∈ Standard.types, isIntrospectionType type.name = false →
      isStandardScalar type.name = true := by
  decide

/-- Collecting types adds none that a user has named, and takes none away. -/
theorem filter_user_of_recollects {listed types : List NamedType}
    (recollects : Draft.Recollects listed types) :
    (types.filter fun type => !isIntrospectionType type.name && !isStandardScalar type.name) =
      listed.filter fun type => !isIntrospectionType type.name && !isStandardScalar type.name := by
  rw [← recollects.kept, List.filter_filter]
  apply List.filter_congr
  intro type mem
  by_cases isListed : type.name ∈ listed.map NamedType.name
  · simp only [isListed, decide_true, Bool.and_true]
  · have standard := not_userType_of_standard type (recollects.standard type mem isListed)
    simp only [isListed, decide_false, Bool.and_false, Bool.and_eq_false_iff, Bool.not_eq_false']
    cases introspection : isIntrospectionType type.name with
    | true => exact .inl rfl
    | false => exact .inr (standard introspection)

/-- The types that a user has named are sorted and arranged; collecting them again neither adds
one nor takes one away. -/
theorem userTypes_of_sort (unique : schema.typeNames.Nodup) {sorted : Schema}
    (given : schema.sort order = .ok sorted) :
    sorted.userTypes = (order.sort NamedType.name schema.userTypes).map
      (NamedType.arranged order) := by
  obtain ⟨-, types, -, recollects, rfl⟩ := (sort_eq_ok_iff unique).mp given
  let isUser : NamedType → Bool := fun type =>
    !isIntrospectionType type.name && !isStandardScalar type.name
  have definedTypes : ((arrangedDraft order schema).withTypes types).definedTypes = types := by
    unfold Schema.definedTypes Draft.withTypes
    rw [List.filterMap_map]
    exact List.filterMap_some
  have onlyListed : types.filter isUser = (schema.arrangedTypes order).filter isUser :=
    filter_user_of_recollects recollects
  have renamesNone : isUser ∘ NamedType.arranged order = isUser := by
    funext type
    simp [isUser]
  rw [userTypes, definedTypes, onlyListed, arrangedTypes, List.filter_map, renamesNone,
    NameOrder.filter_sort, userTypes]

/-- The directives that a user has named are sorted and arranged. -/
theorem userDirectives_of_sort (unique : schema.typeNames.Nodup) {sorted : Schema}
    (given : schema.sort order = .ok sorted) :
    sorted.userDirectives = (order.sort Directive.name schema.userDirectives).map
      (Directive.arranged order) := by
  obtain ⟨-, types, -, -, rfl⟩ := (sort_eq_ok_iff unique).mp given
  unfold userDirectives
  rw [← NameOrder.filter_sort]
  change ((order.sort Directive.name schema.directives).map (Directive.arranged order)).filter _ = _
  rw [List.filter_map]
  rfl

/-- The layout of a sorted copy is in order. -/
theorem userLayout_inOrder_of_sort (unique : schema.typeNames.Nodup) {sorted : Schema}
    (given : schema.sort order = .ok sorted) : LayoutInOrder order sorted.userLayout := by
  unfold userLayout
  rw [userTypes_of_sort unique given, userDirectives_of_sort unique given]
  constructor
  · rw [NameOrder.InOrder, List.pairwise_map, List.pairwise_map]
    simpa [NamedType.layout, NameOrder.InOrder] using
      NameOrder.sort_inOrder order NamedType.name schema.userTypes
  · rw [NameOrder.InOrder, List.pairwise_map, List.pairwise_map]
    exact NameOrder.sort_inOrder order Directive.name schema.userDirectives
  · simp only [List.forall_mem_map, NameOrder.mem_sort]
    intro type mem
    have isUser := (List.mem_filter.mp mem).2
    exact NamedType.layout_arranged_inOrder (by simp_all)
  · simp only [List.forall_mem_map]
    exact fun directive _ => directive.layout_arranged_inOrder

/-- If the layout of a schema is in order, sorting leaves its types and directives as they
are. -/
theorem sort_eq_self_of_layoutInOrder (unique : schema.typeNames.Nodup) {sorted : Schema}
    (given : schema.sort order = .ok sorted) (inOrder : LayoutInOrder order schema.userLayout) :
    sorted.userTypes = schema.userTypes ∧ sorted.userDirectives = schema.userDirectives := by
  have typesInOrder : order.InOrder NamedType.name schema.userTypes :=
    List.pairwise_map.mp inOrder.types
  have directivesInOrder : order.InOrder Directive.name schema.userDirectives :=
    List.pairwise_map.mp inOrder.directives
  rw [userTypes_of_sort unique given, userDirectives_of_sort unique given,
    NameOrder.sort_eq_self typesInOrder, NameOrder.sort_eq_self directivesInOrder]
  constructor
  · have each : ∀ type ∈ schema.userTypes, type.arranged order = id type :=
      fun type mem => NamedType.arranged_eq_self (inOrder.eachType _ (List.mem_map_of_mem mem))
    rw [List.map_congr_left each, List.map_id]
  · have each : ∀ directive ∈ schema.userDirectives, directive.arranged order = id directive :=
      fun directive mem =>
        Directive.arranged_eq_self (inOrder.eachDirective _ (List.mem_map_of_mem mem))
    rw [List.map_congr_left each, List.map_id]

/-- Where a schema can be sorted, it passes the check exactly when its sorted copy has the same
layout, and the sorted copy always passes it. An index is a mapping from names, so that its
names are unique. -/
theorem isSortedBy_iff_sameLayout {collation : Collation} {comparison : Comparison}
    (unique : schema.typeNames.Nodup) {sorted : Schema}
    (given : schema.sortedBy collation comparison = .ok sorted) :
    ∃ answer, schema.isSortedBy collation comparison = .ok answer ∧
      (answer = true ↔ sorted.userLayout = schema.userLayout) ∧
      sorted.isSortedBy collation comparison = .ok true := by
  simp only [sortedBy, Outcome.bind_eq_ok_iff] at given
  obtain ⟨order, compares, given⟩ := given
  have sorts : schema.sort order = .ok sorted := by
    unfold Schema.sorted at given
    cases result : schema.sort order with
    | error fault => simp [result, Except.mapError] at given
    | ok copy => simpa [result, Except.mapError] using given
  obtain ⟨resolvable, types, -, -, isCopy⟩ := (sort_eq_ok_iff unique).mp sorts
  have checked := isSorted_iff_layoutInOrder order resolvable.defined
  have copyDefined : ∀ entry ∈ sorted.index, ∃ type, entry = .defined type := by
    rw [isCopy]
    exact List.forall_mem_map.mpr fun type _ => ⟨type, rfl⟩
  have copyInOrder := userLayout_inOrder_of_sort unique sorts
  have copyPasses := (isSorted_iff_layoutInOrder order copyDefined).mpr copyInOrder
  refine ⟨schema.isSorted order, ?_, ?_, ?_⟩
  · simp only [isSortedBy, Outcome.bind_eq_ok_iff]
    exact ⟨order, compares, rfl⟩
  · rw [checked]
    constructor
    · intro inOrder
      obtain ⟨sameTypes, sameDirectives⟩ := sort_eq_self_of_layoutInOrder unique sorts inOrder
      rw [userLayout, sameTypes, sameDirectives, userLayout]
    · intro sameLayout
      rw [← sameLayout]
      exact copyInOrder
  · simp only [isSortedBy, Outcome.bind_eq_ok_iff]
    exact ⟨order, compares, congrArg Except.ok copyPasses⟩

/-- By code point `starter` is not sorted, since sorting changes its layout, and its sorted copy
is. -/
theorem isSortedBy_starter_iff_sameLayout : starter.typeNames.Nodup ∧
    ∃ sorted, starter.sortedBy (fun _ _ => []) (.options .null) = .ok sorted ∧
      starter.isSortedBy (fun _ _ => []) (.options .null) = .ok false ∧
      sorted.userLayout ≠ starter.userLayout ∧
      sorted.isSortedBy (fun _ _ => []) (.options .null) = .ok true := by
  obtain ⟨added, sorts, -⟩ :=
    sort_of_closed .byCodePoint starter_closed starter_hasUniqueNames.index
  have given : starter.sortedBy (fun _ _ => []) (.options .null) = .ok _ :=
    congrArg (Except.mapError Fault.sort) sorts
  obtain ⟨answer, checked, exact, copyPasses⟩ :=
    isSortedBy_iff_sameLayout starter_hasUniqueNames.index given
  have notSorted : starter.isSortedBy (fun _ _ => []) (.options .null) = .ok false := by rfl
  rw [notSorted] at checked
  refine ⟨starter_hasUniqueNames.index, _, given, notSorted, ?_, copyPasses⟩
  intro sameLayout
  have passes := exact.mpr sameLayout
  rw [← Except.ok.inj checked] at passes
  cases passes

end SchemaOrder.Schema
