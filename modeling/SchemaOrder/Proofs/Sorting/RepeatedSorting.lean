import SchemaOrder.Proofs.Order.PairedOrders
import SchemaOrder.Proofs.Schema.Saturation
import SchemaOrder.Proofs.Sorting.SortedCopy

/-!
# Sorting again

Arranging a thing by one order and then by another one arranges it by the pair of the two
orders. `sort_again` carries this over to schemas: the sorted copy of a closed schema is closed,
and sorting it again gives what sorting by the pair gives. Only the standard types that the
first sort adds behind its sorted types are put in their places by the second one.
-/

namespace SchemaOrder.Schema

open Sorter Outcome

variable {first second order : NameOrder} {schema sorted : Schema}

/-- Arguments that are arranged twice are arranged once, by the pair of the orders. -/
@[simp] theorem Field.arranged_arranged (field : Field) :
    (field.arranged first).arranged second = field.arranged (second.andThen first) := by
  simp [Field.arranged, NameOrder.sort_sort]

/-- Fields that are arranged twice are arranged once, by the pair of the orders. -/
theorem arrangedFields_arrangedFields (fields : List Field) :
    arrangedFields second (arrangedFields first fields) =
      arrangedFields (second.andThen first) fields := by
  have sameNames : ∀ field ∈ first.sort Field.name fields,
      (field.arranged first).name = field.name :=
    fun field _ => Field.name_arranged field
  unfold arrangedFields
  rw [← NameOrder.map_sort sameNames, NameOrder.sort_sort, List.map_map]
  exact List.map_congr_left fun field _ => Field.arranged_arranged field

/-- A body that is arranged twice is arranged once, by the pair of the orders. -/
theorem Body.arranged_arranged (body : Body) :
    (body.arranged first).arranged second = body.arranged (second.andThen first) := by
  cases body with
  | scalar => rfl
  | object | interface =>
      simp [Body.arranged, NameOrder.sortNames_sortNames, arrangedFields_arrangedFields]
  | union => simp [Body.arranged, NameOrder.sortNames_sortNames]
  | enum | inputObject => simp [Body.arranged, NameOrder.sort_sort]

/-- A type that is arranged twice is arranged once, by the pair of the orders. -/
theorem NamedType.arranged_arranged (type : NamedType) :
    (type.arranged first).arranged second = type.arranged (second.andThen first) := by
  cases isIntrospection : isIntrospectionType type.name with
  | true =>
      have unchanged : ∀ order, type.arranged order = type :=
        fun _ => arranged_of_introspection isIntrospection
      simp only [unchanged]
  | false =>
      simp [NamedType.arranged, isIntrospection, Body.arranged_arranged]

/-- A directive that is arranged twice is arranged once, by the pair of the orders. -/
theorem Directive.arranged_arranged (directive : Directive) :
    (directive.arranged first).arranged second = directive.arranged (second.andThen first) := by
  simp [Directive.arranged, NameOrder.sort_sort, NameOrder.sortNames_sortNames]

/-- Directives that are arranged twice are arranged once, by the pair of the orders. -/
theorem arrangedDirectives_of_arranged
    (arranged : sorted.directives = schema.arrangedDirectives first) :
    sorted.arrangedDirectives second = schema.arrangedDirectives (second.andThen first) := by
  have sameNames : ∀ directive ∈ first.sort Directive.name schema.directives,
      (directive.arranged first).name = directive.name :=
    fun directive _ => Directive.name_arranged directive
  unfold arrangedDirectives at arranged ⊢
  rw [arranged, ← NameOrder.map_sort sameNames, NameOrder.sort_sort, List.map_map]
  exact List.map_congr_left fun directive _ => Directive.arranged_arranged directive

/-- Types that are arranged, with standard types behind them, and then arranged again, are the
types arranged by the pair of the orders, with the standard types behind them, in order. -/
theorem arrangedTypes_of_arranged {added : List NamedType}
    (arranged : sorted.definedTypes = schema.arrangedTypes first ++ added)
    (standard : ∀ type ∈ added, type ∈ Standard.types) :
    sorted.arrangedTypes second = second.sort NamedType.name
      (schema.arrangedTypes (second.andThen first) ++ added) := by
  have sameNames : ∀ type ∈ schema.arrangedTypes first ++ added,
      (type.arranged second).name = type.name :=
    fun type _ => NamedType.name_arranged type
  have sameNamesByPair : ∀ type ∈ first.sort NamedType.name schema.definedTypes,
      (type.arranged (second.andThen first)).name = type.name :=
    fun type _ => NamedType.name_arranged type
  have unchanged : added.map (NamedType.arranged second) = added := by
    rw [List.map_congr_left fun type mem => NamedType.arranged_of_standard (standard type mem),
      List.map_id']
  have byPair : (schema.arrangedTypes first).map (NamedType.arranged second) =
      (first.sort NamedType.name schema.definedTypes).map
        (NamedType.arranged (second.andThen first)) := by
    rw [arrangedTypes, List.map_map]
    exact List.map_congr_left fun type _ => NamedType.arranged_arranged type
  have sortedByPair : schema.arrangedTypes (second.andThen first) = second.sort NamedType.name
      ((first.sort NamedType.name schema.definedTypes).map
        (NamedType.arranged (second.andThen first))) := by
    rw [arrangedTypes, ← NameOrder.sort_sort, NameOrder.map_sort fun type _ =>
      NamedType.name_arranged type]
  rw [arrangedTypes, arranged, NameOrder.map_sort sameNames, List.map_append, unchanged, byPair,
    sortedByPair, NameOrder.sort_append_sort]

/-- The types that are collected for the sorted copy of a closed schema are its types. -/
theorem sort_of_collect (closed : schema.Closed) (unique : schema.typeNames.Nodup)
    {types : List NamedType}
    (collected : (arrangedDraft order schema).collect = .ok (types.map .ofType)) :
    schema.sort order = .ok ((arrangedDraft order schema).withTypes types) := by
  rw [sort_eq_assemble (nodup_definedTypes unique) closed.resolvable]
  exact Draft.assemble_of_collect collected

/-- The standard types that sorting adds behind the types of a closed schema are the same in
every order. -/
theorem sort_adds_alike (closed : schema.Closed) (unique : schema.typeNames.Nodup) :
    ∃ added, (∀ order, (arrangedDraft order schema).collect =
        .ok ((schema.arrangedTypes order ++ added).map .ofType)) ∧
      (∀ type ∈ added, type ∈ Standard.types ∧ type.name ∉ schema.typeNames) ∧
      (added.map NamedType.name).Nodup ∧
      (added = [] ↔ Text.ofString "__Schema" ∈ schema.typeNames) := by
  obtain ⟨added, sorts, standard, uniqueAdded, nothing⟩ :=
    sort_of_closed .byCodePoint closed unique
  refine ⟨added, fun order => ?_, standard, uniqueAdded, nothing⟩
  obtain ⟨typesClosed, ownClosed⟩ := arrangedDraft_closed order closed
  obtain ⟨typesClosed', ownClosed'⟩ := arrangedDraft_closed .byCodePoint closed
  have sameNames : ((schema.arrangedTypes order).map NamedType.name).Perm
      ((schema.arrangedTypes .byCodePoint).map NamedType.name) := by
    rw [map_name_arrangedTypes, map_name_arrangedTypes]
    exact (NameOrder.sort_perm order id _).trans (NameOrder.sort_perm .byCodePoint id _).symm
  obtain ⟨others, collected, collected'⟩ := Draft.collect_of_closed_alike
    rfl rfl typesClosed typesClosed' ownClosed ownClosed' sameNames
  have sameTypes := congrArg Schema.types
    (Except.ok.inj (sorts.symm.trans (sort_of_collect closed unique collected')))
  rwa [List.append_cancel_left sameTypes]

/-- The sorted copy of a closed schema: its arranged types, and behind them the standard types
that it did not hold, which are the same in every order. It is closed, each name leads to one
type, and one of them is the type that describes schemas. -/
theorem sort_closes (closed : schema.Closed) (unique : schema.typeNames.Nodup) :
    ∃ added, (added = [] ↔ Text.ofString "__Schema" ∈ schema.typeNames) ∧
      (∀ type ∈ added, type ∈ Standard.types ∧ type.name ∉ schema.typeNames) ∧
      ∀ order, ∃ sorted, schema.sort order = .ok sorted ∧
        sorted = (arrangedDraft order schema).withTypes (schema.arrangedTypes order ++ added) ∧
        sorted.Closed ∧ sorted.typeNames.Nodup ∧ Text.ofString "__Schema" ∈ sorted.typeNames := by
  obtain ⟨added, collects, standard, uniqueAdded, nothing⟩ := sort_adds_alike closed unique
  refine ⟨added, nothing, standard, fun order =>
    ⟨_, sort_of_collect closed unique (collects order), rfl, ?_, ?_, ?_⟩⟩
  · obtain ⟨typesClosed, ownClosed⟩ := arrangedDraft_closed order closed
    refine ⟨?_, ?_, ?_, ?_⟩
    · intro entry mem
      obtain ⟨type, -, rfl⟩ := List.mem_map.mp mem
      exact ⟨type, rfl⟩
    · intro type mem name nameMem
      rw [Draft.definedTypes_withTypes] at mem
      rw [Draft.typeNames_withTypes]
      exact Draft.references_of_collect_of_closed rfl typesClosed (collects order) type mem
        name nameMem
    · intro directive mem name nameMem
      rw [Draft.typeNames_withTypes, List.map_append]
      apply List.mem_append_left
      exact ownClosed name
        (List.mem_append_right _ (List.mem_flatMap.mpr ⟨directive, mem, nameMem⟩))
    · intro name mem
      rw [Draft.typeNames_withTypes, List.map_append]
      apply List.mem_append_left
      exact ownClosed name (List.mem_append_left _ (List.mem_filterMap.mpr ⟨some name, mem, rfl⟩))
  · have uniqueArranged := (nodup_arrangedTypes order).mpr (nodup_definedTypes unique)
    rw [Draft.typeNames_withTypes, List.map_append]
    refine uniqueArranged.append uniqueAdded ?_
    intro name isListed isAdded
    obtain ⟨type, mem, rfl⟩ := List.mem_map.mp isAdded
    exact (standard type mem).2 ((mem_names_arrangedTypes closed.defined).mp isListed)
  · obtain ⟨types, collected, recollects⟩ :=
      Draft.collect_recollects (arrangedDraft order schema) rfl
    rw [collects order, Except.ok.injEq] at collected
    rw [Draft.typeNames_withTypes, TypeDraft.ofType_injective.list_map collected]
    exact recollects.describes

/-- Apart from the types, the copy of a copy is the copy by the pair of the orders. -/
theorem withTypes_arrangedDraft_withTypes (types again : List NamedType) :
    (arrangedDraft second ((arrangedDraft first schema).withTypes types)).withTypes again =
      (arrangedDraft (second.andThen first) schema).withTypes again := by
  have sameDirectives : ((arrangedDraft first schema).withTypes types).arrangedDirectives second =
      schema.arrangedDirectives (second.andThen first) :=
    arrangedDirectives_of_arranged rfl
  have sameTrust : (arrangedDraft second ((arrangedDraft first schema).withTypes types)).isTrusted =
      (arrangedDraft (second.andThen first) schema).isTrusted := by
    cases isKnown : schema.validation <;> simp [Draft.withTypes, arrangedDraft, isKnown]
  have sameValidation := congrArg (fun isTrusted : Bool =>
    if isTrusted then some ([] : List Text) else none) sameTrust
  exact Schema.mk.injEq .. |>.mpr ⟨rfl, rfl, rfl, rfl, sameDirectives, rfl, rfl, sameValidation⟩

/-- The index that shows types, put in order, shows the types in order. -/
theorem withTypes_sort (draft : Draft SortFault) (types : List NamedType) :
    draft.withTypes (order.sort NamedType.name types) = { draft.withTypes types with
      types := order.sort NamedType.name types
      index := order.sort Entry.name (draft.withTypes types).index } := by
  have sameIndex : (order.sort NamedType.name types).map Entry.defined =
      order.sort Entry.name (types.map Entry.defined) :=
    NameOrder.map_sort fun _ _ => rfl
  simp only [Draft.withTypes, sameIndex]

/-- The sorted copy of a closed schema, sorted again, is the copy sorted by the pair of the two
orders, with its types put in their places. -/
theorem sort_sorted (closed : schema.Closed) (unique : schema.typeNames.Nodup)
    {earlier once : Schema} (sortsFirst : schema.sort first = .ok earlier)
    (sortsByPair : schema.sort (second.andThen first) = .ok once) :
    earlier.sort second = .ok { once with
      types := second.sort NamedType.name once.types
      index := second.sort Entry.name once.index } := by
  obtain ⟨added, -, standard, sorts⟩ := sort_closes closed unique
  obtain ⟨_, sortsFirst', isEarlier, earlierClosed, earlierUnique, described⟩ := sorts first
  obtain rfl := Except.ok.inj (sortsFirst.symm.trans sortsFirst')
  obtain ⟨_, sortsByPair', isOnce, -⟩ := sorts (second.andThen first)
  obtain rfl := Except.ok.inj (sortsByPair.symm.trans sortsByPair')
  obtain ⟨others, nothing, -, sorts'⟩ := sort_closes earlierClosed earlierUnique
  obtain ⟨again, sortsAgain, isAgain, -⟩ := sorts' second
  have arranged : earlier.arrangedTypes second = second.sort NamedType.name
      (schema.arrangedTypes (second.andThen first) ++ added) :=
    arrangedTypes_of_arranged (by rw [isEarlier, Draft.definedTypes_withTypes])
      fun type mem => (standard type mem).1
  rw [sortsAgain, isAgain, nothing.mpr described, List.append_nil, arranged, isEarlier,
    withTypes_arrangedDraft_withTypes, withTypes_sort, isOnce]
  rfl

/-- The types of a copy that gained none stand in their places. -/
theorem sort_types_of_described (closed : schema.Closed) (unique : schema.typeNames.Nodup)
    (described : Text.ofString "__Schema" ∈ schema.typeNames) {once : Schema}
    (sortsByPair : schema.sort (second.andThen first) = .ok once) :
    { once with
      types := second.sort NamedType.name once.types
      index := second.sort Entry.name once.index } = once := by
  obtain ⟨added, nothing, -, sorts⟩ := sort_closes closed unique
  obtain ⟨_, sortsByPair', isOnce, -⟩ := sorts (second.andThen first)
  obtain rfl := Except.ok.inj (sortsByPair.symm.trans sortsByPair')
  have inOrder := arrangedTypes_inOrder (second.andThen first) schema
  rw [nothing.mpr described, List.append_nil] at isOnce
  have inPlace : (schema.arrangedTypes (second.andThen first)) =
      second.sort NamedType.name (schema.arrangedTypes (second.andThen first)) :=
    (NameOrder.sort_eq_self inOrder.of_andThen).symm
  rw [isOnce]
  conv => rhs; rw [inPlace, withTypes_sort]
  rfl

/-- The sorted copy of a closed schema that describes itself, sorted again by the same order, is as
it was. -/
theorem sort_sorted_self (closed : schema.Closed) (unique : schema.typeNames.Nodup)
    (described : Text.ofString "__Schema" ∈ schema.typeNames)
    (sorts : schema.sort first = .ok sorted) : sorted.sort first = .ok sorted := by
  have sortsByPair : schema.sort (first.andThen first) = .ok sorted := by
    rw [NameOrder.andThen_self, sorts]
  rw [sort_sorted closed unique sorts sortsByPair,
    sort_types_of_described closed unique described sortsByPair]

/-- Sorting a closed schema by one order and then by another one is sorting it by the pair of the
two orders. Only the standard types that the first sort adds behind its sorted types, which stay
behind them where one sort does it all, are put in their places by the second sort. Where the
schema holds the type by which schemas describe themselves there are none of these: then sorting
again by the same order changes nothing, and by an order that tells all names apart, as all
orders do that options stand for, it leaves nothing of the first sort. -/
theorem sort_again (closed : schema.Closed) (unique : schema.typeNames.Nodup)
    (first second : NameOrder) :
    ∃ earlier once, schema.sort first = .ok earlier ∧
      schema.sort (second.andThen first) = .ok once ∧
      earlier.sort second = .ok { once with
        types := second.sort NamedType.name once.types
        index := second.sort Entry.name once.index } ∧
      (Text.ofString "__Schema" ∈ schema.typeNames →
        earlier.sort second = .ok once ∧
        earlier.sort first = .ok earlier ∧
        (second.TellsApart → earlier.sort second = schema.sort second) ∧
        ∀ collation options, NameOrder.ofOptions collation options = .ok second →
          earlier.sort second = schema.sort second) := by
  obtain ⟨_, -, -, sorts⟩ := sort_closes closed unique
  obtain ⟨earlier, sortsFirst, -⟩ := sorts first
  obtain ⟨once, sortsByPair, -⟩ := sorts (second.andThen first)
  refine ⟨earlier, once, sortsFirst, sortsByPair,
    sort_sorted closed unique sortsFirst sortsByPair, fun described => ?_⟩
  have sortsAgain : ∀ {order once}, schema.sort (order.andThen first) = .ok once →
      earlier.sort order = .ok once := by
    intro order once sortsByPair
    rw [sort_sorted closed unique sortsFirst sortsByPair,
      sort_types_of_described closed unique described sortsByPair]
  have noEffect : second.TellsApart → earlier.sort second = schema.sort second := by
    intro tellsApart
    rw [sortsAgain sortsByPair, ← sortsByPair, NameOrder.andThen_of_tellsApart tellsApart]
  refine ⟨sortsAgain sortsByPair, sortsAgain ?_, noEffect, fun collation options accepted =>
    noEffect (NameOrder.ofOptions_tellsApart accepted)⟩
  rw [NameOrder.andThen_self, sortsFirst]

/-- Sorted by the length of names and then by code point, `starter` is sorted by code point
alone. -/
theorem sort_again_starter : starter.Closed ∧ starter.typeNames.Nodup ∧
    Text.ofString "__Schema" ∈ starter.typeNames ∧
    ∃ earlier once, starter.sort .byLength = .ok earlier ∧
      starter.sort (.andThen .byCodePoint .byLength) = .ok once ∧
      earlier.sort .byCodePoint = .ok once ∧ earlier.sort .byLength = .ok earlier ∧
      earlier.sort .byCodePoint = starter.sort .byCodePoint := by
  have unique := starter_hasUniqueNames.index
  have described : Text.ofString "__Schema" ∈ starter.typeNames := by decide +kernel
  obtain ⟨earlier, once, sortsFirst, sortsByPair, -, whereDescribed⟩ :=
    sort_again starter_closed unique .byLength .byCodePoint
  obtain ⟨sortsAgain, unchanged, noEffect, -⟩ := whereDescribed described
  exact ⟨starter_closed, unique, described, earlier, once, sortsFirst, sortsByPair, sortsAgain,
    unchanged, noEffect NameOrder.byCodePoint_tellsApart⟩

/-- A standard type that is put behind the sorted types of `undescribed` stands behind
`__TypeKind`, though its name comes before. -/
theorem not_inOrder_undescribed {added : List NamedType}
    (standard : ∀ type ∈ added, type ∈ Standard.types ∧ type.name ∉ undescribed.typeNames)
    (nothing : added = [] ↔ Text.ofString "__Schema" ∈ undescribed.typeNames) :
    ¬ NameOrder.byCodePoint.InOrder NamedType.name
      (undescribed.arrangedTypes .byCodePoint ++ added) := by
  intro inOrder
  rw [← NameOrder.inOrder_map_name, List.map_append] at inOrder
  obtain ⟨-, -, before⟩ := List.pairwise_append.mp inOrder
  have comesBefore : ∀ type ∈ Standard.types, type.name ∉ undescribed.typeNames →
      NameOrder.byCodePoint.isAtMost (Text.ofString "__TypeKind") type.name = false := by
    decide +kernel
  have isListed : Text.ofString "__TypeKind" ∈
      (undescribed.arrangedTypes .byCodePoint).map NamedType.name :=
    (mem_names_arrangedTypes undescribed_closed.defined).mpr (by decide +kernel)
  have unlisted : Text.ofString "__Schema" ∉ undescribed.typeNames := by decide +kernel
  obtain ⟨type, mem⟩ := List.exists_mem_of_ne_nil added (mt nothing.mp unlisted)
  obtain ⟨isStandard, isFresh⟩ := standard type mem
  have isAtMost := before _ isListed _ (List.mem_map_of_mem mem)
  simp [comesBefore type isStandard isFresh] at isAtMost

/-- Closed schemas are not always sorted once and for all: the standard types that come back into
the index of `undescribed` stand behind its sorted types at first, and are put in their places
when the copy is sorted again by the same order. -/
theorem sort_again_moves_undescribed : undescribed.Closed ∧ undescribed.typeNames.Nodup ∧
    ∃ once twice, undescribed.sort .byCodePoint = .ok once ∧
      once.sort .byCodePoint = .ok twice ∧ twice.typeNames ≠ once.typeNames := by
  have unique : undescribed.typeNames.Nodup := by decide +kernel
  obtain ⟨added, nothing, standard, sorts⟩ := sort_closes undescribed_closed unique
  obtain ⟨once, sortsOnce, isOnce, -⟩ := sorts .byCodePoint
  have sortsTwice := sort_sorted undescribed_closed unique sortsOnce
    (NameOrder.andThen_self .byCodePoint ▸ sortsOnce)
  refine ⟨undescribed_closed, unique, once, _, sortsOnce, sortsTwice, fun unmoved => ?_⟩
  have inOrder : NameOrder.byCodePoint.InOrder id once.typeNames := by
    rw [← unmoved]
    exact NameOrder.inOrder_map_name.mpr (NameOrder.sort_inOrder .byCodePoint Entry.name once.index)
  rw [isOnce, Draft.typeNames_withTypes, NameOrder.inOrder_map_name] at inOrder
  exact not_inOrder_undescribed standard nothing inOrder

end SchemaOrder.Schema
