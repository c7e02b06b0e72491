import SchemaOrder.Proofs.Schema.Agreement
import SchemaOrder.Proofs.Sorting.Arranged

/-!
# Arranging what was declared in different orders

Where an order tells all names apart, things with different names have one arrangement. This
module carries that from single collections through the nesting of a schema: two schemas that
declare the same things in whatever order have the same arranged types and directives, up to
the order of fields of objects in defaults, which sorting leaves alone.
-/

namespace SchemaOrder.Schema

variable {order : NameOrder}

/-- Collections that agree without an order agree thing by thing when they are sorted and their
things are changed, if the changes make agreeing things agree. -/
theorem Arrangement.Relates.sorted_map {α : Type} {agrees agrees' : α → α → Prop}
    (tellsApart : order.TellsApart) {name : α → Text} {change : α → α} {lefts rights : List α}
    (related : Arrangement.anyOrder.Relates agrees lefts rights)
    (unique : (lefts.map name).Nodup)
    (names : ∀ left right, agrees left right → name left = name right)
    (each : ∀ left ∈ lefts, ∀ right, agrees left right → agrees' (change left) (change right)) :
    Arrangement.inOrder.Relates agrees' ((order.sort name lefts).map change)
      ((order.sort name rights).map change) := by
  obtain ⟨middle, perm, same⟩ := related
  have oneArrangement := NameOrder.sort_eq_of_perm tellsApart unique perm
  have sortedSame : List.Forall₂ agrees (order.sort name lefts) (order.sort name rights) := by
    rw [oneArrangement]
    exact NameOrder.forall₂_sort names same
  have withMembers : List.Forall₂ (fun left right => left ∈ lefts ∧ agrees left right)
      (order.sort name lefts) (order.sort name rights) :=
    (List.forall₂_and_left _ _).mpr ⟨fun left mem => NameOrder.mem_sort.mp mem, sortedSame⟩
  rw [Arrangement.Relates, List.forall₂_map_left_iff, List.forall₂_map_right_iff]
  exact withMembers.imp fun left right both => each left both.1 right both.2

/-- Collections that agree without an order agree thing by thing when they are sorted. -/
theorem Arrangement.Relates.sorted {α : Type} {agrees : α → α → Prop}
    (tellsApart : order.TellsApart) {name : α → Text} {lefts rights : List α}
    (related : Arrangement.anyOrder.Relates agrees lefts rights)
    (unique : (lefts.map name).Nodup)
    (names : ∀ left right, agrees left right → name left = name right) :
    Arrangement.inOrder.Relates agrees (order.sort name lefts) (order.sort name rights) := by
  have unchanged : Arrangement.inOrder.Relates agrees ((order.sort name lefts).map id)
      ((order.sort name rights).map id) :=
    related.sorted_map tellsApart unique names fun _ _ _ agree => agree
  rwa [List.map_id, List.map_id] at unchanged

/-- Names that are the same in any order are the same when they are sorted. -/
theorem Arrangement.Relates.sortedNames (tellsApart : order.TellsApart) {lefts rights : List Text}
    (related : Arrangement.anyOrder.Relates Eq lefts rights) :
    Arrangement.inOrder.Relates Eq (order.sortNames lefts) (order.sortNames rights) := by
  rw [Arrangement.Relates.inOrder_eq_iff_eq]
  exact NameOrder.sortNames_eq_of_perm tellsApart
    (Arrangement.Relates.anyOrder_eq_iff_perm.mp related)

variable (tellsApart : order.TellsApart)
include tellsApart

/-- Arguments or input fields that agree in any order agree when they are sorted. -/
theorem InputValue.Agrees.sorted {lefts rights : List InputValue}
    (related : Arrangement.anyOrder.Relates (InputValue.Agrees .redeclared) lefts rights)
    (unique : (lefts.map InputValue.name).Nodup) :
    Arrangement.inOrder.Relates (InputValue.Agrees .mirrored)
      (order.sort InputValue.name lefts) (order.sort InputValue.name rights) := by
  have sameArguments := related.sorted tellsApart unique fun _ _ agree => agree.name
  exact sameArguments.imp fun _ _ agree =>
    ⟨agree.name, agree.type, agree.default, agree.description, agree.deprecation⟩

/-- Fields that agree in any order agree when they are arranged. -/
theorem Field.Agrees.arranged {lefts rights : List Field}
    (related : Arrangement.anyOrder.Relates (Field.Agrees .redeclared) lefts rights)
    (unique : (lefts.map Field.name).Nodup)
    (uniqueArguments : ∀ field ∈ lefts, (field.arguments.map InputValue.name).Nodup) :
    Arrangement.inOrder.Relates (Field.Agrees .mirrored)
      (arrangedFields order lefts) (arrangedFields order rights) := by
  apply related.sorted_map tellsApart unique (fun _ _ agree => agree.name)
  intro left mem right agree
  exact ⟨agree.name, agree.type,
    InputValue.Agrees.sorted tellsApart agree.arguments (uniqueArguments left mem),
    agree.description, agree.deprecation⟩

/-- Bodies that agree in any order agree when they are arranged. -/
theorem Body.Agrees.arranged {left right : Body} (agree : left.Agrees .redeclared right)
    (unique : left.HasUniqueNames) :
    (left.arranged order).Agrees .mirrored (right.arranged order) := by
  cases agree with
  | scalar specifiedBy => exact .scalar specifiedBy
  | object sameInterfaces sameFields =>
      exact .object (sameInterfaces.sortedNames tellsApart)
        (Field.Agrees.arranged tellsApart sameFields unique.1 unique.2)
  | interface sameInterfaces sameFields =>
      exact .interface (sameInterfaces.sortedNames tellsApart)
        (Field.Agrees.arranged tellsApart sameFields unique.1 unique.2)
  | union sameMembers => exact .union (sameMembers.sortedNames tellsApart)
  | enum sameValues =>
      exact .enum (sameValues.sorted tellsApart unique fun _ _ => congrArg EnumValue.name)
  | inputObject sameFields oneOf =>
      exact .inputObject (InputValue.Agrees.sorted tellsApart sameFields unique) oneOf

/-- Types that agree in any order agree when they are arranged. Introspection types are left
as they are, and are the same. -/
theorem NamedType.Agrees.arranged {left right : NamedType} (agree : left.Agrees .redeclared right)
    (unique : left.body.HasUniqueNames) :
    (left.arranged order).Agrees .mirrored (right.arranged order) := by
  cases introspection : isIntrospectionType left.name with
  | true =>
      have sameBody := agree.introspection introspection
      rw [NamedType.arranged_of_introspection introspection,
        NamedType.arranged_of_introspection (agree.name ▸ introspection)]
      exact ⟨agree.name, agree.description, sameBody ▸ .refl Value.Alike.same left.body,
        fun _ => sameBody⟩
  | false =>
      rw [NamedType.arranged_of_not_introspection introspection,
        NamedType.arranged_of_not_introspection (agree.name ▸ introspection)]
      refine ⟨agree.name, agree.description, agree.body.arranged tellsApart unique, ?_⟩
      intro isIntrospection
      rw [introspection] at isIntrospection
      cases isIntrospection

/-- Directives that agree in any order agree when they are arranged. -/
theorem Directive.Agrees.arranged {left right : Directive} (agree : left.Agrees .redeclared right)
    (unique : (left.arguments.map InputValue.name).Nodup) :
    (left.arranged order).Agrees .mirrored (right.arranged order) where
  name := agree.name
  description := agree.description
  arguments := InputValue.Agrees.sorted tellsApart agree.arguments unique
  isRepeatable := agree.isRepeatable
  locations := agree.locations.sortedNames tellsApart
  deprecation := agree.deprecation

variable {left right : Schema} (agree : left.Agrees .redeclared right)
  (unique : left.HasUniqueNames)
include agree unique

/-- Schemas that declare the same directives in any order have the same arranged directives. -/
theorem Agrees.arrangedDirectives :
    Arrangement.inOrder.Relates (Directive.Agrees .mirrored)
      (left.arrangedDirectives order) (right.arrangedDirectives order) :=
  agree.directives.sorted_map tellsApart unique.directives (fun _ _ agree => agree.name)
    fun directive mem _ agree => agree.arranged tellsApart (unique.arguments directive mem)

/-- Schemas that declare the same types in any order have the same arranged types. -/
theorem Agrees.arrangedTypes (leftDefined : ∀ entry ∈ left.index, ∃ type, entry = .defined type)
    (rightDefined : ∀ entry ∈ right.index, ∃ type, entry = .defined type) :
    Arrangement.inOrder.Relates (NamedType.Agrees .mirrored)
      (left.arrangedTypes order) (right.arrangedTypes order) := by
  have entries : Arrangement.inOrder.Relates (Entry.Agrees .mirrored)
      ((left.arrangedTypes order).map .defined) ((right.arrangedTypes order).map .defined) := by
    rw [map_defined_arrangedTypes leftDefined, map_defined_arrangedTypes rightDefined]
    apply agree.index.sorted_map tellsApart unique.index fun _ _ agree => agree.name
    intro entry mem other agree
    cases agree with
    | kindless name => exact .kindless name
    | @defined type _ types =>
        have isDefined : type ∈ left.definedTypes := List.mem_filterMap.mpr ⟨_, mem, rfl⟩
        exact .defined (types.arranged tellsApart (unique.bodies type isDefined))
  rw [Arrangement.Relates, List.forall₂_map_left_iff, List.forall₂_map_right_iff] at entries
  exact entries.imp fun _ _ agree => by cases agree with | defined types => exact types

end SchemaOrder.Schema
