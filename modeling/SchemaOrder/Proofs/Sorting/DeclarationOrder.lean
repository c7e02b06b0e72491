import SchemaOrder.Proofs.Schema.AgreeingDrafts
import SchemaOrder.Proofs.Schema.Describing
import SchemaOrder.Proofs.Schema.Writing
import SchemaOrder.Proofs.Sorting.Rearrangement
import SchemaOrder.Proofs.Sorting.SortedCopy

/-!
# Independence of the order of declarations

Whatever options of comparison ask for, sorting forgets the order in which the parts of a
schema were declared: `sort_forgets_declarations` says that two schemas that declare the same
things are sorted into schemas that mirror each other, and are then written, described and
hashed as the same. Names that a collator does not tell apart stand by code point, so that
no trace of the old order is left.
-/

namespace SchemaOrder.Schema

open Sorter Outcome

variable {order : NameOrder} {left right : Schema}

/-- Schemas that declare the same things have the same names in their indexes. -/
theorem Agrees.typeNames_perm (agree : left.Agrees .redeclared right) :
    left.typeNames.Perm right.typeNames :=
  agree.index.map_perm _ fun _ _ agree => agree.name

/-- The drafts of the sorted copies of schemas that declare the same things lead to the same
names. -/
theorem Agrees.references_arrangedDraft (tellsApart : order.TellsApart)
    (agree : left.Agrees .redeclared right) (unique : left.HasUniqueNames) :
    (arrangedDraft order left).references = (arrangedDraft order right).references := by
  have directives : (left.arrangedDirectives order).flatMap Directive.references =
      (right.arrangedDirectives order).flatMap Directive.references := by
    apply Arrangement.Relates.flatMap_eq _ (agree.arrangedDirectives tellsApart unique)
    intro directive directive' agree
    exact Arrangement.Relates.map_eq _ agree.arguments fun _ _ agree =>
      congrArg TypeReference.base agree.type
  change [left.query, left.mutation, left.subscription].filterMap id ++
      (left.arrangedDirectives order).flatMap Directive.references ++ _ =
    [right.query, right.mutation, right.subscription].filterMap id ++
      (right.arrangedDirectives order).flatMap Directive.references ++ _
  rw [directives, agree.query, agree.mutation, agree.subscription]

/-- Schemas that declare the same things in whatever order are sorted into schemas that mirror
each other, by an order that tells all names apart. -/
theorem sort_mirrors (tellsApart : order.TellsApart) (leftClosed : left.Closed)
    (rightClosed : right.Closed) (unique : left.HasUniqueNames)
    (agree : left.Agrees .redeclared right) :
    ∃ left' right', left.sort order = .ok left' ∧ right.sort order = .ok right' ∧
      left'.Mirrors right' := by
  have rightUnique : right.typeNames.Nodup := agree.typeNames_perm.nodup_iff.mp unique.index
  obtain ⟨leftTypes, leftCollected, leftRecollects⟩ :=
    Draft.collect_recollects (arrangedDraft order left) rfl
  obtain ⟨rightTypes, rightCollected, rightRecollects⟩ :=
    Draft.collect_recollects (arrangedDraft order right) rfl
  have drafts : List.Forall₂ TypeDraft.Agrees (arrangedDraft order left).types
      (arrangedDraft order right).types := by
    have types := agree.arrangedTypes tellsApart unique leftClosed.defined rightClosed.defined
    unfold arrangedDraft
    rw [List.forall₂_map_left_iff, List.forall₂_map_right_iff]
    exact types.imp fun type type' agree => ⟨type, type', rfl, rfl, agree⟩
  have types : List.Forall₂ (NamedType.Agrees .mirrored) leftTypes rightTypes := by
    have collected := Draft.collect_corresponds drafts
      (agree.references_arrangedDraft tellsApart unique) _ _ leftCollected rightCollected
    rw [List.forall₂_map_left_iff, List.forall₂_map_right_iff] at collected
    exact collected.imp fun _ _ agree => agree.types
  refine ⟨_, _, (sort_eq_ok_iff unique.index).mpr
      ⟨leftClosed.resolvable, _, leftCollected, leftRecollects, rfl⟩,
    (sort_eq_ok_iff rightUnique).mpr
      ⟨rightClosed.resolvable, _, rightCollected, rightRecollects, rfl⟩, ?_, types⟩
  refine ⟨agree.description, agree.query, agree.mutation, agree.subscription,
    agree.arrangedDirectives tellsApart unique, ?_⟩
  rw [Arrangement.Relates, Draft.withTypes, Draft.withTypes, List.forall₂_map_left_iff,
    List.forall₂_map_right_iff]
  exact types.imp fun _ _ agree => .defined agree

/-- The fingerprint of a schema is the digest of its sorted copy. -/
theorem fingerprint_of_sort {schema sorted : Schema} (sorts : schema.sort order = .ok sorted) :
    schema.fingerprint order = sorted.digest := by
  unfold fingerprint Schema.sorted
  rw [sorts]
  rfl

/-- By whatever options of comparison that are accepted, and whatever the collation is, two
closed schemas that declare the same things in different orders are sorted into schemas that
are the same in every order. These are written as the same document, the same text is hashed
for their fingerprints, and they have the same introspection result where both have one. -/
theorem sort_forgets_declarations {collation : Collation} {options : Option CompareOptions}
    (accepted : NameOrder.ofOptions collation options = .ok order) (leftClosed : left.Closed)
    (rightClosed : right.Closed) (unique : left.HasUniqueNames)
    (agree : left.Agrees .redeclared right) :
    ∃ left' right', left.sort order = .ok left' ∧ right.sort order = .ok right' ∧
      left'.Mirrors right' ∧
      SameResult left'.toDocument right'.toDocument ∧
      Corresponds Eq left'.toIntrospection right'.toIntrospection ∧
      SameResult left'.print right'.print ∧
      SameResult (left.fingerprint order) (right.fingerprint order) := by
  have tellsApart := NameOrder.ofOptions_tellsApart accepted
  obtain ⟨left', right', leftSorts, rightSorts, mirrors⟩ :=
    sort_mirrors tellsApart leftClosed rightClosed unique agree
  refine ⟨left', right', leftSorts, rightSorts, mirrors, mirrors.toDocument_sameResult,
    mirrors.toIntrospection_corresponds, mirrors.print_sameResult, ?_⟩
  rw [fingerprint_of_sort leftSorts, fingerprint_of_sort rightSorts]
  exact mirrors.digest_sameResult

/-- The small schema with all its collections the other way round. -/
def reversedStarter : Schema :=
  starterBy fun _ => List.reverse

/-- Everything that `reversedStarter` refers to is in its index. -/
theorem reversedStarter_closed : reversedStarter.Closed where
  defined := by simp [reversedStarter, starterBy]
  types := by decide +kernel
  directives := by decide +kernel
  roots := by
    intro name mem
    have known : ∀ name ∈ reversedStarter.roots.filterMap id,
        name ∈ reversedStarter.typeNames := by decide +kernel
    exact known name (by simpa using mem)

/-- An object that holds its fields the other way round is the same mapping. -/
theorem shade_alike_reverse :
    Value.Alike (.object [("red", .integer 1), ("blue", .integer 2)])
      (.object [("blue", .integer 2), ("red", .integer 1)]) := by
  have sameValues : ∀ name, Value.lookup name [("red", .integer 1), ("blue", .integer 2)] =
      Value.lookup name [("blue", .integer 2), ("red", .integer 1)] := by
    intro name
    simp only [Value.lookup, Named.find?, List.find?_cons, List.find?_nil]
    by_cases isRed : ("red" : Text) = name
    · subst isRed
      rfl
    · simp [isRed]
  refine .object (fun name => by rw [sameValues name]) ?_
  intro name first second firstValue secondValue
  rw [sameValues name, secondValue] at firstValue
  cases firstValue
  exact .same _

/-- The small schema and its reverse declare the same things, also in the default of an
argument. -/
theorem starter_agrees_reversedStarter : starter.Agrees .redeclared reversedStarter := by
  have same : ∀ {α : Type} {agrees : α → α → Prop} (things : List α),
      (∀ thing, agrees thing thing) → Arrangement.anyOrder.Relates agrees things things.reverse :=
    fun _ each => .reverse (List.forall₂_same.mpr fun thing _ => each thing)
  have query : (starterQuery fun _ => id).Agrees .redeclared
      (starterQuery fun _ => List.reverse) := by
    refine ⟨rfl, rfl, .object (.refl fun _ _ => rfl) (.reverse (.cons ?_ (.cons ?_ .nil))),
      fun isIntrospection => by cases isIntrospection⟩
    · refine ⟨rfl, rfl, .reverse (.cons ?_ (.cons ?_ .nil)), rfl, rfl⟩
      · exact ⟨rfl, rfl, .some shade_alike_reverse, rfl, rfl⟩
      · exact .refl Value.Alike.same _
    · exact .refl Value.Alike.same _
  have shade : (starterShade fun _ => id).Agrees .redeclared (starterShade fun _ => List.reverse) :=
    ⟨rfl, rfl, .inputObject (same _ (.refl Value.Alike.same)) _,
      fun isIntrospection => by cases isIntrospection⟩
  have color : (starterColor fun _ => id).Agrees .redeclared (starterColor fun _ => List.reverse) :=
    ⟨rfl, rfl, .enum (same _ fun _ => rfl), fun isIntrospection => by cases isIntrospection⟩
  have unchanged : ∀ type : NamedType, Entry.Agrees .redeclared (.defined type) (.defined type) :=
    fun type => .defined (.refl Value.Alike.same type)
  refine ⟨rfl, rfl, rfl, rfl, same _ (.refl Value.Alike.same), ?_⟩
  refine .reverse (.cons (.defined query) (.cons (.defined shade)
    (.cons (unchanged _) (.cons (.defined color) ?_))))
  exact .cons (unchanged _) (List.forall₂_same.mpr fun entry mem => by
    obtain ⟨type, -, rfl⟩ := List.mem_map.mp mem
    exact unchanged type)

/-- Without options of comparison the small schema and its reverse are sorted into schemas that
mirror each other. -/
theorem sort_forgets_reversal :
    NameOrder.ofOptions (fun _ _ => []) none = .ok .byCodePoint ∧
    ∃ left right, starter.sort .byCodePoint = .ok left ∧
      reversedStarter.sort .byCodePoint = .ok right ∧ left.Mirrors right ∧
      SameResult left.toDocument right.toDocument ∧
      Corresponds Eq left.toIntrospection right.toIntrospection ∧
      SameResult left.print right.print ∧
      SameResult (starter.fingerprint .byCodePoint) (reversedStarter.fingerprint .byCodePoint) :=
  have accepted : NameOrder.ofOptions (fun _ _ => []) none = .ok .byCodePoint := rfl
  ⟨accepted, sort_forgets_declarations accepted starter_closed reversedStarter_closed
    starter_hasUniqueNames starter_agrees_reversedStarter⟩

end SchemaOrder.Schema
