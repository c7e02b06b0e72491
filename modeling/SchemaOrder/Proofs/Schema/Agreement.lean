import Mathlib.Data.List.Forall2
import SchemaOrder.Named
import SchemaOrder.Schema.Basic

/-!
# Agreement of schemas

This module says what it means that two schemas agree but for the order of their parts.
Everything that a schema, a type, a field, an argument or a directive holds is compared; what
may differ is given by a `Closeness`: whether collections have the same order or just the same
things in them, and when two defaults count as the same. Only the index of types is compared,
not the types that references lead to, since sorting starts from the index.
-/

namespace SchemaOrder

namespace Value

/-- The value of the first field with a name. -/
def lookup (name : Text) (fields : List (Text × Value)) : Option Value :=
  (Named.find? Prod.fst name fields).map Prod.snd

/-- Two values that are the same when objects are read as mappings from names to values. -/
inductive Alike : Value → Value → Prop where
  | same (value : Value) : Alike value value
  | list {lefts rights : List Value} (lengths : lefts.length = rights.length)
      (items : ∀ pair ∈ lefts.zip rights, Alike pair.1 pair.2) :
      Alike (.list lefts) (.list rights)
  | object {lefts rights : List (Text × Value)}
      (names : ∀ name, (lookup name lefts).isSome = (lookup name rights).isSome)
      (values : ∀ name left right, lookup name lefts = some left →
        lookup name rights = some right → Alike left right) :
      Alike (.object lefts) (.object rights)

end Value

namespace Schema

/-- How two collections are compared. -/
inductive Arrangement where
  /-- Thing by thing. -/
  | inOrder
  /-- As if neither had an order. -/
  | anyOrder

/-- How close two schemas are: how their collections are compared, and which defaults of
arguments and input fields count as the same. -/
structure Closeness where
  arrangement : Arrangement
  defaults : Value → Value → Prop

/-- How close a schema and its sorted copy are. -/
abbrev Closeness.rearranged : Closeness :=
  ⟨.anyOrder, Eq⟩

/-- How close two schemas are that declare the same things, in whatever order, and with the
fields of objects in defaults in whatever order. -/
abbrev Closeness.redeclared : Closeness :=
  ⟨.anyOrder, Value.Alike⟩

/-- How close two schemas are that differ in no order but that of fields of objects in
defaults. -/
abbrev Closeness.mirrored : Closeness :=
  ⟨.inOrder, Value.Alike⟩

/-- Two collections whose things agree one by one, at the same place or at any. -/
def Arrangement.Relates {α : Type} (arrangement : Arrangement) (agrees : α → α → Prop)
    (lefts rights : List α) : Prop :=
  match arrangement with
  | .inOrder => List.Forall₂ agrees lefts rights
  | .anyOrder => ∃ middle, lefts.Perm middle ∧ List.Forall₂ agrees middle rights

variable (closeness : Closeness)

/-- Two arguments or input fields that agree. -/
structure InputValue.Agrees (left right : InputValue) : Prop where
  name : left.name = right.name
  type : left.type = right.type
  default : Option.Rel closeness.defaults left.default? right.default?
  description : left.description = right.description
  deprecation : left.deprecation = right.deprecation

/-- Two fields that agree. -/
structure Field.Agrees (left right : Field) : Prop where
  name : left.name = right.name
  type : left.type = right.type
  arguments : closeness.arrangement.Relates (InputValue.Agrees closeness)
    left.arguments right.arguments
  description : left.description = right.description
  deprecation : left.deprecation = right.deprecation

/-- Two bodies of one kind that agree. -/
inductive Body.Agrees : Body → Body → Prop where
  | scalar (specifiedBy : Option Text) : Agrees (.scalar specifiedBy) (.scalar specifiedBy)
  | object {interfaces interfaces' : List Text} {fields fields' : List Field}
      (sameInterfaces : closeness.arrangement.Relates Eq interfaces interfaces')
      (sameFields : closeness.arrangement.Relates (Field.Agrees closeness) fields fields') :
      Agrees (.object interfaces fields) (.object interfaces' fields')
  | interface {interfaces interfaces' : List Text} {fields fields' : List Field}
      (sameInterfaces : closeness.arrangement.Relates Eq interfaces interfaces')
      (sameFields : closeness.arrangement.Relates (Field.Agrees closeness) fields fields') :
      Agrees (.interface interfaces fields) (.interface interfaces' fields')
  | union {members members' : List Text}
      (sameMembers : closeness.arrangement.Relates Eq members members') :
      Agrees (.union members) (.union members')
  | enum {values values' : List EnumValue}
      (sameValues : closeness.arrangement.Relates Eq values values') :
      Agrees (.enum values) (.enum values')
  | inputObject {fields fields' : List InputValue}
      (sameFields : closeness.arrangement.Relates (InputValue.Agrees closeness) fields fields')
      (oneOf : Json) : Agrees (.inputObject fields oneOf) (.inputObject fields' oneOf)

/-- Two types that agree. No schema declares the introspection types, so that these have the
same bodies. -/
structure NamedType.Agrees (left right : NamedType) : Prop where
  name : left.name = right.name
  description : left.description = right.description
  body : left.body.Agrees closeness right.body
  introspection : isIntrospectionType left.name = true → left.body = right.body

/-- Two entries of an index that agree. -/
inductive Entry.Agrees : Entry → Entry → Prop where
  | defined {left right : NamedType} (types : left.Agrees closeness right) :
      Agrees (.defined left) (.defined right)
  | kindless (name : Text) : Agrees (.kindless name) (.kindless name)

/-- Entries that agree have the same name. -/
theorem Entry.Agrees.name {closeness : Closeness} {left right : Entry}
    (agree : left.Agrees closeness right) : left.name = right.name := by
  cases agree with
  | defined types => exact types.name
  | kindless name => rfl

/-- Two directives that agree. -/
structure Directive.Agrees (left right : Directive) : Prop where
  name : left.name = right.name
  description : left.description = right.description
  arguments : closeness.arrangement.Relates (InputValue.Agrees closeness)
    left.arguments right.arguments
  isRepeatable : left.isRepeatable = right.isRepeatable
  locations : closeness.arrangement.Relates Eq left.locations right.locations
  deprecation : left.deprecation = right.deprecation

/-- Two schemas that agree. What validation found is not compared. -/
structure Agrees (left right : Schema) : Prop where
  description : left.description = right.description
  query : left.query = right.query
  mutation : left.mutation = right.mutation
  subscription : left.subscription = right.subscription
  directives : closeness.arrangement.Relates (Directive.Agrees closeness)
    left.directives right.directives
  index : closeness.arrangement.Relates (Entry.Agrees closeness) left.index right.index

/-- Two schemas that are the same in every order, also in that of the types that references lead
to; only fields of objects in defaults may be held in different orders. -/
structure Mirrors (left right : Schema) : Prop where
  agrees : left.Agrees .mirrored right
  types : List.Forall₂ (NamedType.Agrees .mirrored) left.types right.types

namespace Arrangement.Relates

variable {α : Type} {arrangement : Arrangement} {agrees : α → α → Prop} {lefts rights : List α}

/-- A collection agrees with itself where its things do. -/
theorem refl (each : ∀ thing ∈ lefts, agrees thing thing) :
    arrangement.Relates agrees lefts lefts := by
  have thingByThing : List.Forall₂ agrees lefts lefts := List.forall₂_same.mpr each
  cases arrangement with
  | inOrder => exact thingByThing
  | anyOrder => exact ⟨lefts, .refl lefts, thingByThing⟩

/-- Without an order, the same things are the same things rearranged. -/
theorem anyOrder_eq_iff_perm :
    Arrangement.anyOrder.Relates Eq lefts rights ↔ lefts.Perm rights := by
  constructor
  · rintro ⟨middle, perm, same⟩
    rw [List.forall₂_eq_eq_eq] at same
    rwa [← same]
  · intro perm
    exact ⟨rights, perm, List.forall₂_same.mpr fun _ _ => rfl⟩

/-- In order, the same things are the same list. -/
theorem inOrder_eq_iff_eq : Arrangement.inOrder.Relates Eq lefts rights ↔ lefts = rights := by
  rw [Arrangement.Relates, List.forall₂_eq_eq_eq]

/-- What agreeing things have in common stands in the same order. -/
theorem map_eq {β : Type} (value : α → β)
    (related : Arrangement.inOrder.Relates agrees lefts rights)
    (each : ∀ left right, agrees left right → value left = value right) :
    lefts.map value = rights.map value := by
  rw [← List.forall₂_eq_eq_eq, List.forall₂_map_left_iff, List.forall₂_map_right_iff]
  exact related.imp each

/-- Lists that agreeing things have in common make the same list. -/
theorem flatMap_eq {β : Type} (values : α → List β)
    (related : Arrangement.inOrder.Relates agrees lefts rights)
    (each : ∀ left right, agrees left right → values left = values right) :
    lefts.flatMap values = rights.flatMap values := by
  rw [List.flatMap_def, List.flatMap_def, map_eq values related each]

/-- A test that agreeing things pass together is passed by all things together. -/
theorem all_eq (test : α → Bool) (related : Arrangement.inOrder.Relates agrees lefts rights)
    (each : ∀ left right, agrees left right → test left = test right) :
    lefts.all test = rights.all test := by
  have answers := map_eq test related each
  simpa [List.all_map] using congrArg (fun answers => answers.all id) answers

/-- Two collections that agree thing by thing are empty together. -/
theorem isEmpty_eq (related : Arrangement.inOrder.Relates agrees lefts rights) :
    lefts.isEmpty = rights.isEmpty := by
  cases related <;> rfl

/-- Things that agree stand at the same places. -/
theorem zipIdx (related : Arrangement.inOrder.Relates agrees lefts rights) (start : Nat) :
    List.Forall₂ (fun left right => agrees left.1 right.1 ∧ left.2 = right.2)
      (lefts.zipIdx start) (rights.zipIdx start) := by
  induction related generalizing start with
  | nil => exact .nil
  | cons head _ inductionHypothesis =>
      rw [List.zipIdx_cons, List.zipIdx_cons]
      exact .cons ⟨head, rfl⟩ (inductionHypothesis (start + 1))

/-- Things that agree stand beside the same values. -/
theorem zip {β : Type} (related : Arrangement.inOrder.Relates agrees lefts rights)
    (values : List β) :
    List.Forall₂ (fun left right => agrees left.1 right.1 ∧ left.2 = right.2)
      (lefts.zip values) (rights.zip values) := by
  induction related generalizing values with
  | nil => exact .nil
  | cons head _ inductionHypothesis =>
      cases values with
      | nil => exact .nil
      | cons value others => exact .cons ⟨head, rfl⟩ (inductionHypothesis others)

/-- Things that agree stay together if others are left out. -/
theorem filter (keep : α → Bool) (related : Arrangement.inOrder.Relates agrees lefts rights)
    (each : ∀ left right, agrees left right → keep left = keep right) :
    Arrangement.inOrder.Relates agrees (lefts.filter keep) (rights.filter keep) := by
  induction related with
  | nil => exact .nil
  | @cons left right _ _ head _ inductionHypothesis =>
      rw [List.filter_cons, List.filter_cons, ← each left right head]
      cases keep left with
      | true => exact .cons head inductionHypothesis
      | false => exact inductionHypothesis

/-- Without an order, what agreeing things have in common stands in any order. -/
theorem map_perm {β : Type} (value : α → β)
    (related : Arrangement.anyOrder.Relates agrees lefts rights)
    (each : ∀ left right, agrees left right → value left = value right) :
    (lefts.map value).Perm (rights.map value) := by
  obtain ⟨middle, perm, same⟩ := related
  have sameValues : middle.map value = rights.map value := map_eq value same each
  exact sameValues ▸ perm.map value

/-- Without an order, things that lead to the same things in any order make lists of the same
things. -/
theorem flatMap_perm {β : Type} (values : α → List β)
    (related : Arrangement.anyOrder.Relates agrees lefts rights)
    (each : ∀ left right, agrees left right → (values left).Perm (values right)) :
    (lefts.flatMap values).Perm (rights.flatMap values) := by
  obtain ⟨middle, perm, same⟩ := related
  refine (perm.flatMap_right values).trans ?_
  clear perm
  induction same with
  | nil => exact .refl _
  | cons head _ inductionHypothesis =>
      rw [List.flatMap_cons, List.flatMap_cons]
      exact (each _ _ head).append inductionHypothesis

/-- Agreeing things are found at the same places, if they are looked for by what they have in
common. -/
theorem find? (wanted : α → Bool) (related : Arrangement.inOrder.Relates agrees lefts rights)
    (each : ∀ left right, agrees left right → wanted left = wanted right) :
    Option.Rel agrees (lefts.find? wanted) (rights.find? wanted) := by
  induction related with
  | nil => exact .none
  | @cons left right _ _ head _ inductionHypothesis =>
      rw [List.find?_cons, List.find?_cons, ← each left right head]
      cases wanted left with
      | true => exact .some head
      | false => exact inductionHypothesis

/-- Things that agree agree without an order if some of them are turned round. -/
theorem reverse (related : Arrangement.inOrder.Relates agrees lefts rights) :
    Arrangement.anyOrder.Relates agrees lefts rights.reverse :=
  ⟨lefts.reverse, (List.reverse_perm lefts).symm, List.forall₂_reverse_iff.mpr related⟩

/-- Collections that agree may be put behind collections that agree. -/
theorem append {lefts' rights' : List α}
    (first : Arrangement.anyOrder.Relates agrees lefts rights)
    (second : Arrangement.anyOrder.Relates agrees lefts' rights') :
    Arrangement.anyOrder.Relates agrees (lefts ++ lefts') (rights ++ rights') := by
  obtain ⟨middle, perm, same⟩ := first
  obtain ⟨middle', perm', same'⟩ := second
  exact ⟨middle ++ middle', perm.append perm', List.rel_append same same'⟩

end Arrangement.Relates

section Refl

variable {closeness} (same : ∀ value, closeness.defaults value value)
include same

/-- An argument agrees with itself. -/
theorem InputValue.Agrees.refl (input : InputValue) : input.Agrees closeness input := by
  refine ⟨rfl, rfl, ?_, rfl, rfl⟩
  cases input.default? with
  | none => exact .none
  | some value => exact .some (same value)

/-- A field agrees with itself. -/
theorem Field.Agrees.refl (field : Field) : field.Agrees closeness field :=
  ⟨rfl, rfl, .refl fun _ _ => .refl same _, rfl, rfl⟩

/-- A body agrees with itself. -/
theorem Body.Agrees.refl (body : Body) : body.Agrees closeness body := by
  cases body with
  | scalar specifiedBy => exact .scalar specifiedBy
  | object => exact .object (.refl fun _ _ => rfl) (.refl fun _ _ => .refl same _)
  | interface => exact .interface (.refl fun _ _ => rfl) (.refl fun _ _ => .refl same _)
  | union => exact .union (.refl fun _ _ => rfl)
  | enum => exact .enum (.refl fun _ _ => rfl)
  | inputObject fields oneOf => exact .inputObject (.refl fun _ _ => .refl same _) oneOf

/-- A type agrees with itself. -/
theorem NamedType.Agrees.refl (type : NamedType) : type.Agrees closeness type :=
  ⟨rfl, rfl, .refl same _, fun _ => rfl⟩

/-- A directive agrees with itself. -/
theorem Directive.Agrees.refl (directive : Directive) : directive.Agrees closeness directive :=
  ⟨rfl, rfl, .refl fun _ _ => .refl same _, rfl, .refl fun _ _ => rfl, rfl⟩

end Refl

end Schema

end SchemaOrder
