import SchemaOrder.Proofs.Storing.Resemblance

/-!
# Sorted copies of resembling schemas

Sorting looks at names alone, and what is written of arguments does not depend on their order. The
sorted copies of schemas that resemble each other therefore resemble each other, so that they are
written as the same document, with the same digest.
-/

namespace SchemaOrder.Schema

open Outcome

variable {order : NameOrder}

section Spoken

/-- Arguments are written with the same descriptions in every order. -/
theorem spokenArguments_sort (arguments : List InputValue) :
    spokenArguments (order.sort InputValue.name arguments) =
      order.sort InputValue.name (spokenArguments arguments) := by
  have sameDescription : ∀ argument, spokenDescription (order.sort InputValue.name arguments)
      argument = spokenDescription arguments argument := by
    intro argument
    unfold spokenDescription
    rw [(NameOrder.sort_perm order InputValue.name arguments).all_eq]
  unfold spokenArguments
  simp only [sameDescription]
  exact NameOrder.map_sort fun _ _ => rfl

/-- What is written of an arranged field is arranged. -/
theorem Field.spoken_arranged (field : Field) :
    (field.arranged order).spoken = field.spoken.arranged order := by
  unfold Field.arranged Field.spoken
  rw [spokenArguments_sort]

/-- What is written of arranged fields is arranged. -/
theorem map_spoken_arrangedFields (fields : List Field) :
    (arrangedFields order fields).map Field.spoken =
      arrangedFields order (fields.map Field.spoken) := by
  have sorted : (order.sort Field.name fields).map Field.spoken =
      order.sort Field.name (fields.map Field.spoken) := NameOrder.map_sort fun _ _ => rfl
  rw [arrangedFields, arrangedFields, ← sorted, List.map_map, List.map_map]
  exact List.map_congr_left fun field _ => Field.spoken_arranged field

/-- What is written of an arranged body is arranged. -/
theorem Body.spoken_arranged (body : Body) :
    (body.arranged order).spoken = body.spoken.arranged order := by
  cases body with
  | scalar | union | enum | inputObject => rfl
  | object interfaces fields | interface interfaces fields =>
      simp only [Body.arranged, Body.spoken, map_spoken_arrangedFields]

/-- What is written of an arranged type is arranged, if it is no introspection type. -/
theorem NamedType.spoken_arranged {type : NamedType}
    (ordinary : isIntrospectionType type.name = false) :
    (type.arranged order).spoken = type.spoken.arranged order := by
  have spokenOrdinary : isIntrospectionType type.spoken.name = false := ordinary
  rw [arranged_of_not_introspection ordinary, arranged_of_not_introspection spokenOrdinary]
  unfold spoken
  rw [← Body.spoken_arranged]

/-- What is written of an arranged directive is arranged. -/
theorem Directive.spoken_arranged (directive : Directive) :
    (directive.arranged order).spoken = directive.spoken.arranged order := by
  unfold Directive.arranged Directive.spoken
  rw [spokenArguments_sort]

end Spoken

section Agreement

/-- Arguments that agree one by one do so when they are sorted. -/
theorem agrees_sort {lefts rights : List InputValue}
    (related : Arrangement.inOrder.Relates (InputValue.Agrees .mirrored) lefts rights) :
    Arrangement.inOrder.Relates (InputValue.Agrees .mirrored)
      (order.sort InputValue.name lefts) (order.sort InputValue.name rights) :=
  NameOrder.forall₂_sort (fun _ _ agree => agree.name) related

/-- Bodies that agree do so when they are arranged. -/
theorem Body.Agrees.arranged_inOrder {left right : Body} (agree : left.Agrees .mirrored right) :
    (left.arranged order).Agrees .mirrored (right.arranged order) := by
  have sameFields : ∀ {fields fields' : List Field},
      Arrangement.inOrder.Relates (Field.Agrees .mirrored) fields fields' →
      Arrangement.inOrder.Relates (Field.Agrees .mirrored) (arrangedFields order fields)
        (arrangedFields order fields') := by
    intro fields fields' related
    rw [Arrangement.Relates, arrangedFields, arrangedFields, List.forall₂_map_left_iff,
      List.forall₂_map_right_iff]
    refine (NameOrder.forall₂_sort (fun _ _ agree => agree.name) related).imp fun _ _ agree => ?_
    exact ⟨agree.name, agree.type, agrees_sort agree.arguments, agree.description,
      agree.deprecation⟩
  have sameThings : ∀ {α : Type} {name : α → Text} {things things' : List α},
      Arrangement.inOrder.Relates Eq things things' →
      Arrangement.inOrder.Relates Eq (order.sort name things) (order.sort name things') := by
    intro α name things things' related
    rw [Arrangement.Relates.inOrder_eq_iff_eq] at related ⊢
    rw [related]
  cases agree with
  | scalar specifiedBy => exact .scalar specifiedBy
  | object sameInterfaces related => exact .object (sameThings sameInterfaces) (sameFields related)
  | interface sameInterfaces related =>
      exact .interface (sameThings sameInterfaces) (sameFields related)
  | union sameMembers => exact .union (sameThings sameMembers)
  | enum sameValues => exact .enum (sameThings sameValues)
  | inputObject related oneOf => exact .inputObject (agrees_sort related) oneOf

/-- Types that resemble each other do so when they are arranged, if they are no introspection
types. -/
theorem NamedType.Resembles.arranged {left right : NamedType}
    (ordinary : isIntrospectionType left.name = false) (resembles : left.Resembles right) :
    (left.arranged order).Resembles (right.arranged order) := by
  have sameName : left.name = right.name := resembles.name
  have ordinary' : isIntrospectionType right.name = false := sameName ▸ ordinary
  have leftOrdinary : isIntrospectionType left.spoken.name = false := ordinary
  have rightOrdinary : isIntrospectionType right.spoken.name = false := ordinary'
  unfold NamedType.Resembles at resembles ⊢
  rw [spoken_arranged ordinary, spoken_arranged ordinary',
    arranged_of_not_introspection leftOrdinary, arranged_of_not_introspection rightOrdinary]
  refine ⟨resembles.name, resembles.description, resembles.body.arranged_inOrder,
    fun isIntrospection => ?_⟩
  have isIntrospection : isIntrospectionType left.name = true := isIntrospection
  rw [ordinary] at isIntrospection
  cases isIntrospection

/-- Directives that resemble each other do so when they are arranged. -/
theorem Directive.Resembles.arranged {left right : Directive} (resembles : left.Resembles right) :
    (left.arranged order).Resembles (right.arranged order) := by
  unfold Directive.Resembles at resembles ⊢
  rw [spoken_arranged, spoken_arranged]
  refine ⟨resembles.name, resembles.description, agrees_sort resembles.arguments,
    resembles.isRepeatable, ?_, resembles.deprecation⟩
  have sameLocations := Arrangement.Relates.inOrder_eq_iff_eq.mp resembles.locations
  rw [Arrangement.Relates.inOrder_eq_iff_eq]
  exact congrArg order.sortNames sameLocations

end Agreement

variable {left right left' right' : Schema}

/-- The sorted copy of a schema says the same of the schema itself. -/
theorem writeSchema_of_sort (intact : left.Intact) (sorts : left.sort order = .ok left') :
    left'.writeSchema = left.writeSchema := by
  obtain ⟨-, _, -, -, isSorted⟩ := (sort_eq_ok_iff intact.unique).mp sorts
  rw [isSorted]
  rfl

/-- The sorted copies of schemas that resemble each other resemble each other. -/
theorem Resembles.sorted (resembles : left.Resembles right) (leftIntact : left.Intact)
    (rightIntact : right.Intact) (leftSorts : left.sort order = .ok left')
    (rightSorts : right.sort order = .ok right') : left'.Resembles right' where
  schema := by
    rw [writeSchema_of_sort leftIntact leftSorts, writeSchema_of_sort rightIntact rightSorts,
      resembles.schema]
  types := by
    rw [userTypes_of_sort leftIntact.unique leftSorts, userTypes_of_sort rightIntact.unique
      rightSorts, List.forall₂_map_left_iff, List.forall₂_map_right_iff]
    have sorted : List.Forall₂ NamedType.Resembles (order.sort NamedType.name left.userTypes)
        (order.sort NamedType.name right.userTypes) :=
      NameOrder.forall₂_sort (fun _ _ both => both.name) resembles.types
    refine forall₂_imp_of_mem sorted (fun type mem => ?_) fun _ _ ordinary both =>
      NamedType.Resembles.arranged ordinary both
    have ordinary := ordinary_of_userType (NameOrder.mem_sort.mp mem)
    exact (Bool.or_eq_false_iff.mp ordinary).2
  directives := by
    rw [userDirectives_of_sort leftIntact.unique leftSorts, userDirectives_of_sort
      rightIntact.unique rightSorts, List.forall₂_map_left_iff, List.forall₂_map_right_iff]
    have sorted : List.Forall₂ Directive.Resembles
        (order.sort Directive.name left.userDirectives)
        (order.sort Directive.name right.userDirectives) :=
      NameOrder.forall₂_sort (fun _ _ both => both.name) resembles.directives
    exact sorted.imp fun _ _ both => both.arranged

end SchemaOrder.Schema
