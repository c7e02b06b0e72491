import SchemaOrder.Proofs.Schema.DescriptionParts
import SchemaOrder.Proofs.Sorting.SortedLegibility
import SchemaOrder.Proofs.Storing.Skeletons

/-!
# What a description keeps

A schema whose description is read again has the same skeleton, standard types and all: what was
said of every part is what is made of it. References are only described down to a certain level.
One that goes deeper is not cut off; the description cannot be read then.
-/

namespace SchemaOrder

/-- How many lists and refusals of null stand around the name in a reference. -/
def TypeReference.levels : TypeReference → Nat
  | .named _ => 0
  | .list inner | .nonNull inner => inner.levels + 1

namespace Schema

open Outcome

variable {schema : Schema} {types : List DescribedType}

/-- The references of a field: that to its own type, and those of its arguments. -/
def Field.typeReferences (field : Field) : List TypeReference :=
  field.type :: field.arguments.map InputValue.type

/-- The references that a body may wrap: those of its fields or of its input fields. -/
def Body.typeReferences : Body → List TypeReference
  | .object _ fields | .interface _ fields => fields.flatMap Field.typeReferences
  | .inputObject fields _ => fields.map InputValue.type
  | _ => []

/-- All references of a schema that may be wrapped. -/
def typeReferences (schema : Schema) : List TypeReference :=
  schema.types.flatMap (fun type => type.body.typeReferences) ++
    schema.directives.flatMap fun directive => directive.arguments.map InputValue.type

namespace Described

section References

/-- A word is the word that it is. -/
theorem isWord_self (word : Text) : isWord word (.text word) = true :=
  decide_eq_true rfl

/-- The word for the kind of a name is none of the words for what stands around it. -/
theorem isWord_kindOf (schema : Schema) (name : Text) :
    isWord "LIST" (Describe.kindOf schema name) = false ∧
      isWord "NON_NULL" (Describe.kindOf schema name) = false := by
  unfold Describe.kindOf
  cases schema.kind? name with
  | none => exact ⟨rfl, rfl⟩
  | some kind => cases kind <;> decide

/-- What is said of a level inside a reference. -/
theorem lookup_innerLevel (schema : Schema) (remaining : Nat) (type : TypeReference) :
    (Describe.innerLevel schema remaining type).lookup "kind" =
        .ok (Describe.level schema type).2 ∧
      (Describe.innerLevel schema remaining type).lookup "name" =
        .ok (Describe.level schema type).1 ∧
      (Describe.innerLevel schema remaining type).lookup "ofType" =
        .ok (Describe.inside schema remaining type) := by
  have nothing : Describe.inside schema 0 type = .null := by cases type <;> rfl
  unfold Describe.innerLevel
  refine ⟨(Describe.lookup_object _ _).trans (by simp [List.lookup_cons]),
    (Describe.lookup_object _ _).trans (by simp), (Describe.lookup_object _ _).trans ?_⟩
  split
  · next isLast => simp [List.lookup_cons, isLast, nothing]
  · simp [List.lookup_cons]

/-- What a level that a name stands on makes is the name. -/
theorem eq_of_makesReference_named {value : Json} {name : Text} {made : TypeReference}
    (isKind : value.lookup "kind" = .ok (Describe.kindOf schema name))
    (isName : value.lookup "name" = .ok (.text name))
    (makes : MakesReference types value made) : made = .named name := by
  obtain ⟨notList, notNonNull⟩ := isWord_kindOf schema name
  cases makes with
  | list kindSaid isList =>
      obtain rfl := Except.ok.inj (isKind.symm.trans kindSaid)
      cases notList.symm.trans isList
  | nonNull kindSaid _ isNonNull =>
      obtain rfl := Except.ok.inj (isKind.symm.trans kindSaid)
      cases notNonNull.symm.trans isNonNull
  | named _ _ _ nameSaid =>
      cases isName.symm.trans nameSaid
      rfl

/-- What the description of a reference makes is the reference, and the description goes as deep as
the reference does. The word for a level leaves one way to read it, and the level inside is
there. -/
theorem eq_of_makesReference {remaining : Nat} {value : Json} {type made : TypeReference}
    (isKind : value.lookup "kind" = .ok (Describe.level schema type).2)
    (isName : value.lookup "name" = .ok (Describe.level schema type).1)
    (isInner : value.lookup "ofType" = .ok (Describe.inside schema remaining type))
    (makes : MakesReference types value made) :
    made = type ∧ type.levels ≤ remaining := by
  induction type generalizing remaining value made with
  | named name => exact ⟨eq_of_makesReference_named isKind isName makes, Nat.zero_le _⟩
  | list inner inductionHypothesis =>
      cases makes with
      | list _ _ innerSaid isThere inside =>
          obtain rfl := Except.ok.inj (isInner.symm.trans innerSaid)
          obtain _ | remaining := remaining
          · cases isThere
          obtain ⟨kindSaid, nameSaid, innerSaid⟩ := lookup_innerLevel schema remaining inner
          obtain ⟨rfl, deep⟩ := inductionHypothesis kindSaid nameSaid innerSaid inside
          exact ⟨rfl, Nat.succ_le_succ deep⟩
      | nonNull kindSaid notList | named kindSaid notList =>
          obtain rfl := Except.ok.inj (isKind.symm.trans kindSaid)
          cases notList.symm.trans (isWord_self "LIST")
  | nonNull inner inductionHypothesis =>
      cases makes with
      | list kindSaid isList =>
          obtain rfl := Except.ok.inj (isKind.symm.trans kindSaid)
          cases (show isWord "LIST" (.text "NON_NULL") = false by decide).symm.trans isList
      | nonNull _ _ _ innerSaid isThere _ inside =>
          obtain rfl := Except.ok.inj (isInner.symm.trans innerSaid)
          obtain _ | remaining := remaining
          · cases isThere
          obtain ⟨kindSaid, nameSaid, innerSaid⟩ := lookup_innerLevel schema remaining inner
          obtain ⟨rfl, deep⟩ := inductionHypothesis kindSaid nameSaid innerSaid inside
          exact ⟨rfl, Nat.succ_le_succ deep⟩
      | named kindSaid _ notNonNull =>
          obtain rfl := Except.ok.inj (isKind.symm.trans kindSaid)
          cases notNonNull.symm.trans (isWord_self "NON_NULL")

/-- What is read of a described reference is the reference, which is not too deep. -/
theorem eq_of_reference {type made : TypeReference}
    (given : reference types (Describe.reference schema type) = .ok made) :
    made = type ∧ type.levels ≤ Describe.innerLevels := by
  have isKind : (Describe.reference schema type).lookup "kind" =
      .ok (Describe.level schema type).2 := by
    rw [Describe.reference_eq, Describe.lookup_object]
    rfl
  have isName : (Describe.reference schema type).lookup "name" =
      .ok (Describe.level schema type).1 := by
    rw [Describe.reference_eq, Describe.lookup_object]
    rfl
  have isInner : (Describe.reference schema type).lookup "ofType" =
      .ok (Describe.inside schema Describe.innerLevels type) := by
    rw [Describe.reference_eq, Describe.lookup_object]
    rfl
  exact eq_of_makesReference isKind isName isInner (makesReference_of_referenceWith given)

/-- A reference of a kind is the name that it is read of. -/
theorem eq_of_referenceOfKind {kind : TypeKind} {words name made : Text} {value : Json}
    (isReference : ∀ type, reference types value = .ok type → type = .named name)
    (given : referenceOfKind types kind words value = .ok made) : made = name := by
  obtain ⟨type, isType, rest⟩ := bind_eq_ok_iff.mp given
  obtain rfl := isReference type isType
  obtain ⟨found, -, rest⟩ := bind_eq_ok_iff.mp rest
  split at rest <;> cases rest
  rfl

/-- References by name are read as they were described. -/
theorem eq_of_names {kind : TypeKind} {words : Text} {names made : List Text}
    (given : List.Forall₂ (fun element name => referenceOfKind types kind words element = .ok name)
      (names.map fun name => Describe.reference schema (.named name)) made) : made = names := by
  rw [List.forall₂_map_left_iff] at given
  rw [← List.map_id made, ← List.map_id names]
  refine map_eq_map_of_forall₂ given fun name result isMade => ?_
  exact eq_of_referenceOfKind (fun type isType => (eq_of_reference isType).1) isMade

/-- The operations are served by the types that are described to serve them. -/
theorem eq_of_root {members : List (String × Json)} {operation : String} {name made : Option Text}
    (isRoot : members.lookup operation = some (Describe.root schema name))
    (given : root types (Describe.object members) (Text.ofString operation) = .ok made) :
    made = name := by
  obtain ⟨value, isValue, rest⟩ := bind_eq_ok_iff.mp given
  rw [ask, mapError_eq_ok_iff, Describe.lookup_object, isRoot] at isValue
  obtain rfl := Except.ok.inj isValue
  cases name with
  | none =>
      cases rest
      rfl
  | some name =>
      obtain ⟨found, isFound, rest⟩ := bind_eq_ok_iff.mp rest
      cases rest
      have isKind : (Describe.root schema (some name)).lookup "kind" =
          .ok (Describe.kindOf schema name) := (Describe.lookup_object _ _).trans rfl
      have isName : (Describe.root schema (some name)).lookup "name" = .ok (.text name) :=
        (Describe.lookup_object _ _).trans rfl
      exact congrArg some (eq_of_referenceOfKind (fun type isType =>
        eq_of_makesReference_named isKind isName (makesReference_of_referenceWith isType)) isFound)

end References

section Collected

variable {α β : Type} {describe : α → Except DescriptionFault Json}
  {make : Json → Except SchemaFault β} {name : α → Text} {things : List α} {values : List Json}
  {parts : List (Json × β)}

/-- What is collected of descriptions of differently named things is what each of them makes, under
its name. -/
theorem forall₂_of_collected (described : things.mapM describe = .ok values)
    (names : ∀ thing value, describe thing = .ok value →
      value.member "name" = .ok (.text (name thing)))
    (unique : (things.map name).Nodup) (collected : collect make (.array values) = .ok parts) :
    List.Forall₂ (fun thing part => part.1 = .text (name thing) ∧
      ∃ value, describe thing = .ok value ∧ make value = .ok part.2) things parts := by
  obtain ⟨elements, all, areElements, made, rfl⟩ := collect_eq_ok collected
  obtain rfl := Except.ok.inj areElements
  have each : List.Forall₂ (fun thing part => part.1 = .text (name thing) ∧
      ∃ value, describe thing = .ok value ∧ make value = .ok part.2) things all := by
    refine forall₂_trans_of_mem (forall₂_of_mapM described) made ?_
    rintro thing - value part isDescribed ⟨isName, isMade⟩
    have sameName := (names thing value isDescribed).symm.trans isName
    exact ⟨(Except.ok.inj sameName).symm, value, isDescribed, isMade⟩
  have sameNames : all.map Prod.fst = (things.map name).map Json.text := by
    rw [List.map_map]
    exact map_eq_map_of_forall₂ each fun _ _ both => both.1
  rwa [keyed_of_apart]
  unfold Apart
  rw [sameNames, List.pairwise_map]
  exact unique.imp fun different => by simpa [Json.agrees] using different

/-- Collected parts with checked names are what the descriptions make, one by one, each with the
name of what was described. -/
theorem forall₂_of_checked (rename : Text → β → β) {checked : List (Text × β)}
    (described : things.mapM describe = .ok values)
    (names : ∀ thing value, describe thing = .ok value →
      value.member "name" = .ok (.text (name thing)))
    (unique : (things.map name).Nodup) (collected : collect make (.array values) = .ok parts)
    (isChecked : checkedParts parts = .ok checked) :
    List.Forall₂ (fun thing made => ∃ value unnamed, describe thing = .ok value ∧
      make value = .ok unnamed ∧ made = rename (name thing) unnamed) things
        (checked.map fun entry => rename entry.1 entry.2) := by
  rw [List.forall₂_map_right_iff]
  refine forall₂_trans_of_mem (forall₂_of_collected described names unique collected)
    (forall₂_of_checkedParts isChecked) ?_
  rintro thing - _ entry ⟨isName, value, isDescribed, isMade⟩ ⟨rfl, -⟩
  exact ⟨value, entry.2, isDescribed, isMade, congrArg (rename · entry.2) (Json.text.inj isName)⟩

end Collected

section Parts

/-- Inputs are made of their descriptions, one by one. -/
theorem forall₂_of_describedInputs {coercion : InputTypes SchemaFault} {place subject : Text}
    {inputs : List InputValue} {value : Json} {parts : List (Json × InputValue)}
    {checked : List (Text × InputValue)} (unique : (inputs.map InputValue.name).Nodup)
    (described : Describe.inputValues schema inputs = .ok value)
    (collected : collect (inputValue coercion types place subject) value = .ok parts)
    (isChecked : checkedParts parts = .ok checked) :
    List.Forall₂ (fun input made => ∃ value unnamed, Describe.inputValue schema input = .ok value ∧
      inputValue coercion types place subject value = .ok unnamed ∧
        made = { unnamed with name := input.name }) inputs (named checked) := by
  obtain ⟨values, areValues, rest⟩ := bind_eq_ok_iff.mp described
  cases rest
  exact forall₂_of_checked (fun name part => { part with name }) areValues
    (fun _ _ said => (Describe.inputValue_described said).2.1) unique collected isChecked

/-- The type of an argument or an input field is made as it was described, and is not too deep. -/
theorem type_of_describedInput {coercion : InputTypes SchemaFault} {place subject : Text}
    {input made : InputValue} {value : Json}
    (described : Describe.inputValue schema input = .ok value)
    (given : inputValue coercion types place subject value = .ok made) :
    made.type = input.type ∧ input.type.levels ≤ Describe.innerLevels := by
  obtain ⟨member, _, _, isMember, isReference, -⟩ := inputValue_eq_ok given
  obtain rfl := Except.ok.inj ((Describe.inputValue_described described).2.2.symm.trans isMember)
  exact eq_of_reference isReference

/-- The named inputs that inputs are read as have the skeletons of these, none of which has too deep
a type. -/
theorem inputs_of_described {coercion : InputTypes SchemaFault} {place subject : Text}
    {inputs : List InputValue} {value : Json} {parts : List (Json × InputValue)}
    {checked : List (Text × InputValue)} (unique : (inputs.map InputValue.name).Nodup)
    (described : Describe.inputValues schema inputs = .ok value)
    (collected : collect (inputValue coercion types place subject) value = .ok parts)
    (isChecked : checkedParts parts = .ok checked) :
    (named checked).map InputValue.skeleton = inputs.map InputValue.skeleton ∧
      ∀ input ∈ inputs, input.type.levels ≤ Describe.innerLevels := by
  have all := forall₂_of_describedInputs unique described collected isChecked
  refine ⟨map_eq_map_of_forall₂ all ?_, fun input mem => ?_⟩
  · rintro input _ ⟨value, unnamed, isDescribed, isMade, rfl⟩
    exact congrArg (InputSkeleton.mk input.name) (type_of_describedInput isDescribed isMade).1
  · obtain ⟨_, -, value, unnamed, isDescribed, isMade, -⟩ := exists_of_mem_forall₂ all.flip mem
    exact (type_of_describedInput isDescribed isMade).2

/-- The fields of a described type are made of their descriptions, one by one. -/
theorem forall₂_of_describedFields {fields made : List Field} {value : Json} {type : DescribedType}
    (unique : (fields.map Field.name).Nodup)
    (fieldsSaid : type.description.lookup "fields" = .ok value)
    (described : Describe.fields schema fields = .ok value)
    (holds : Described.fields types type = .ok made) :
    List.Forall₂ (fun own made => ∃ value unnamed, Describe.field schema own = .ok value ∧
      field types value = .ok unnamed ∧ made = { unnamed with name := own.name }) fields made := by
  obtain ⟨source, parts, checked, isSource, collected, isChecked, rfl⟩ := fields_eq_ok holds
  obtain rfl := Except.ok.inj (fieldsSaid.symm.trans isSource)
  obtain ⟨values, areValues, rest⟩ := bind_eq_ok_iff.mp described
  cases rest
  exact forall₂_of_checked (fun name part => { part with name }) areValues
    (fun _ _ said => (Describe.field_described said).2.1) unique collected isChecked

/-- A described field has the type and the texts of the field, and what the descriptions of its
arguments make. -/
theorem field_of_described {own made : Field} {value : Json}
    (described : Describe.field schema own = .ok value) (given : field types value = .ok made) :
    (made.type = own.type ∧ own.type.levels ≤ Describe.innerLevels) ∧
      made.description = own.description ∧ made.deprecation = own.deprecation ∧
      ∃ value parts checked, Describe.inputValues schema own.arguments = .ok value ∧
        arguments types value = .ok parts ∧ checkedParts parts = .ok checked ∧
          made.arguments = named checked := by
  obtain ⟨member, _, args, parts, checked, isMember, isReference, -, -, areArgs, collected,
    isChecked, sameArguments, isDescription, isReason⟩ := field_eq_ok given
  obtain ⟨-, -, typeSaid, value, areArguments, argsSaid⟩ := Describe.field_described described
  obtain ⟨descriptionSaid, reasonSaid⟩ := Describe.field_texts described
  obtain rfl := Except.ok.inj (typeSaid.symm.trans isMember)
  obtain rfl := Except.ok.inj (argsSaid.symm.trans areArgs)
  exact ⟨eq_of_reference isReference, isDescription.eq descriptionSaid, isReason.eq reasonSaid,
    _, parts, checked, areArguments, collected, isChecked, sameArguments⟩

/-- Fields are read as they were described, and none has too deep a type or an argument that has. -/
theorem fields_of_described {fields made : List Field} {value : Json} {type : DescribedType}
    (unique : (fields.map Field.name).Nodup)
    (uniqueArguments : ∀ field ∈ fields, (field.arguments.map InputValue.name).Nodup)
    (fieldsSaid : type.description.lookup "fields" = .ok value)
    (described : Describe.fields schema fields = .ok value)
    (holds : Described.fields types type = .ok made) :
    made.map Field.skeleton = fields.map Field.skeleton ∧
      ∀ type ∈ fields.flatMap Field.typeReferences, type.levels ≤ Describe.innerLevels := by
  have all : List.Forall₂ (fun field (made : Field) => made.skeleton = field.skeleton ∧
      ∀ type ∈ field.typeReferences, type.levels ≤ Describe.innerLevels) fields made := by
    refine forall₂_imp_of_mem (forall₂_of_describedFields unique fieldsSaid described holds)
      uniqueArguments ?_
    rintro field _ unique ⟨value, unnamed, isDescribed, isMade, rfl⟩
    obtain ⟨⟨sameType, shallow⟩, -, -, value, parts, checked, areArguments, collected, isChecked,
      sameArguments⟩ := field_of_described isDescribed isMade
    obtain ⟨sameInputs, shallowInputs⟩ :=
      inputs_of_described unique areArguments collected isChecked
    refine ⟨?_, List.forall_mem_cons.mpr ⟨shallow, List.forall_mem_map.mpr shallowInputs⟩⟩
    rw [Field.skeleton, Field.skeleton, sameType, sameArguments, sameInputs]
  refine ⟨map_eq_map_of_forall₂ all fun _ _ both => both.1,
    List.forall_mem_flatMap.mpr fun field mem => ?_⟩
  obtain ⟨_, -, -, shallow⟩ := exists_of_mem_forall₂ all.flip mem
  exact shallow

/-- The interfaces of a type are read as they were described. -/
theorem interfaces_of_described {described : DescribedType} {interfaces made : List Text}
    (said : described.description.lookup "interfaces" = .ok (Describe.names schema interfaces))
    (implements : Described.interfaces types described = .ok made) : made = interfaces := by
  obtain ⟨source, isSource, isNull | ⟨elements, areElements, references⟩⟩ :=
    interfaces_eq_ok implements
  · obtain rfl := Except.ok.inj (said.symm.trans isSource)
    cases isNull.1
  · obtain rfl := Except.ok.inj (said.symm.trans isSource)
    obtain rfl := Except.ok.inj areElements
    exact eq_of_names references

/-- The values of an enum are made as they were described, texts and all. -/
theorem values_of_described {values made : List EnumValue} {parts : List (Json × EnumValue)}
    (unique : (values.map EnumValue.name).Nodup)
    (collected : collect enumValue (.array (values.map Describe.enumValue)) = .ok parts)
    (isMade : namedValues parts = .ok made) : made = values := by
  have described : values.mapM (fun value => (.ok (Describe.enumValue value) :
      Except DescriptionFault Json)) = .ok (values.map Describe.enumValue) :=
    mapM_eq_ok fun _ _ => rfl
  have all := forall₂_of_collected described (fun value _ said => by
    cases said
    exact (Describe.enumValue_described value).2) unique collected
  rw [← List.map_id made, ← List.map_id values]
  refine map_eq_map_of_forall₂ (forall₂_trans_of_mem all (forall₂_of_namedValues isMade) ?_)
    fun _ _ same => same
  rintro value - part result ⟨isName, _, isDescribed, given⟩ ⟨isText, -, isResult⟩
  cases isDescribed
  obtain ⟨isDescription, isReason⟩ := enumValue_eq_ok given
  obtain ⟨descriptionSaid, reasonSaid⟩ := Describe.enumValue_texts value
  have sameName := Json.text.inj (isText.symm.trans isName)
  have sameDescription := isDescription.eq descriptionSaid
  have sameReason := isReason.eq reasonSaid
  rw [id, id, isResult]
  show EnumValue.mk _ part.2.description part.2.deprecation = value
  rw [sameName, sameDescription, sameReason]

end Parts

section Members

variable {value : Json} {members : List (String × Json)}
  (isDescription : value = Describe.object members)
include isDescription

/-- What is looked up in a description of named members. -/
theorem lookup_of_described (member : String) :
    value.lookup (Text.ofString member) = .ok ((members.lookup member).getD .null) := by
  rw [isDescription, Describe.lookup_object]

/-- What is found as a member of a description is what was said under its name. -/
theorem eq_of_member_described {member : String} {said found : Json}
    (isSaid : members.lookup member = some said)
    (isFound : value.member (Text.ofString member) = .ok found) : found = said := by
  rw [isDescription, Describe.member_object isSaid] at isFound
  exact (Except.ok.inj isFound).symm

end Members

/-- A body is read as it was described, and leads to no type too deeply. -/
theorem body_of_described {type : NamedType} {described : DescribedType} {made : Body}
    {flag fields inputs : Json} (unique : type.body.HasUniqueNames)
    (areFields : Describe.bodyFields schema type.body = .ok fields)
    (areInputs : Describe.bodyInputs schema type.body = .ok inputs)
    (isDescription : described.description =
      Describe.object (Describe.typeMembers schema type flag fields inputs))
    (isKind : described.kind = type.kind) (makes : Makes types described made) :
    made.skeleton = type.body.skeleton ∧
      ∀ reference ∈ type.body.typeReferences, reference.levels ≤ Describe.innerLevels := by
  obtain ⟨name, description, body⟩ := type
  have looks := lookup_of_described isDescription
  replace isKind : described.kind = body.kind := isKind
  cases makes with
  | scalar specifiedBy isScalar =>
      cases body <;> cases isKind.symm.trans isScalar
      exact ⟨rfl, by simp [Body.typeReferences]⟩
  | object isObject implements isMade =>
      cases body <;> cases isKind.symm.trans isObject
      obtain ⟨sameFields, shallow⟩ :=
        fields_of_described unique.1 unique.2 (looks "fields") areFields isMade
      obtain rfl := interfaces_of_described (looks "interfaces") implements
      rw [Body.skeleton, Body.skeleton, sameFields]
      exact ⟨rfl, shallow⟩
  | interface isInterface implements isMade =>
      cases body <;> cases isKind.symm.trans isInterface
      obtain ⟨sameFields, shallow⟩ :=
        fields_of_described unique.1 unique.2 (looks "fields") areFields isMade
      obtain rfl := interfaces_of_described (looks "interfaces") implements
      rw [Body.skeleton, Body.skeleton, sameFields]
      exact ⟨rfl, shallow⟩
  | union isUnion joins =>
      cases body <;> cases isKind.symm.trans isUnion
      obtain ⟨source, elements, isSource, areElements, references⟩ := members_eq_ok joins
      obtain rfl := eq_of_member_described isDescription rfl isSource
      obtain rfl := Except.ok.inj areElements
      rw [Body.skeleton, Body.skeleton, eq_of_names references]
      exact ⟨rfl, by simp [Body.typeReferences]⟩
  | enum isEnum isSource collected isMade =>
      cases body <;> cases isKind.symm.trans isEnum
      obtain rfl := Except.ok.inj ((looks "enumValues").symm.trans isSource)
      obtain rfl := values_of_described unique collected isMade
      exact ⟨rfl, by simp [Body.typeReferences]⟩
  | inputObject isInputObject isMade =>
      cases body <;> cases isKind.symm.trans isInputObject
      obtain ⟨source, parts, checked, isSource, collected, isChecked, rfl⟩ :=
        inputFields_eq_ok isMade
      obtain rfl := eq_of_member_described isDescription rfl isSource
      obtain ⟨sameInputs, shallow⟩ := inputs_of_described unique areInputs collected isChecked
      rw [Body.skeleton, Body.skeleton, sameInputs]
      exact ⟨rfl, List.forall_mem_map.mpr shallow⟩

/-- A described directive is that of the schema but for its arguments, and has what the descriptions
of these make. -/
theorem eq_of_described_directive {directive made : Directive} {value : Json}
    (described : Describe.directive schema directive = .ok value)
    (given : Described.directive types value = .ok made) :
    made = { directive with arguments := made.arguments } ∧
      ∃ value parts checked, Describe.inputValues schema directive.arguments = .ok value ∧
        arguments types value = .ok parts ∧ checkedParts parts = .ok checked ∧
          made.arguments = named checked := by
  obtain ⟨args, places, elements, parts, checked, areArgs, collected, isChecked, sameArguments,
    arePlaces, areElements, areLocations, isName, -, isFlag, isDescription, isReason⟩ :=
    directive_eq_ok given
  obtain ⟨-, nameSaid, flagSaid, placesSaid, value, areArguments, argsSaid⟩ :=
    Describe.directive_described described
  obtain ⟨descriptionSaid, reasonSaid⟩ := Describe.directive_texts described
  obtain rfl := Except.ok.inj (argsSaid.symm.trans areArgs)
  obtain rfl := Except.ok.inj (placesSaid.symm.trans arePlaces)
  obtain rfl := Except.ok.inj areElements
  have sameName := Json.text.inj (Except.ok.inj (isName.symm.trans nameSaid))
  have sameDescription := isDescription.eq descriptionSaid
  have sameReason := isReason.eq reasonSaid
  rw [flagSaid] at isFlag
  have sameFlag := Json.boolean.inj isFlag
  have sameLocations : made.locations = directive.locations := by
    have each := forall₂_of_mapM areLocations
    rw [List.forall₂_map_left_iff] at each
    rw [← List.map_id made.locations, ← List.map_id directive.locations]
    refine map_eq_map_of_forall₂ each fun location result isLocation => ?_
    dsimp only at isLocation
    split at isLocation <;> cases isLocation
    rfl
  refine ⟨?_, _, parts, checked, areArguments, collected, isChecked, sameArguments⟩
  obtain ⟨name, description, inputs, isRepeatable, locations, deprecation⟩ := made
  simp only at sameName sameDescription sameReason sameFlag sameLocations
  rw [sameName, sameDescription, sameReason, sameFlag, sameLocations]

/-- A directive is read as it was described, and no argument has too deep a type. -/
theorem directive_of_described {directive made : Directive} {value : Json}
    (unique : (directive.arguments.map InputValue.name).Nodup)
    (described : Describe.directive schema directive = .ok value)
    (given : Described.directive types value = .ok made) :
    made.skeleton = directive.skeleton ∧
      ∀ argument ∈ directive.arguments, argument.type.levels ≤ Describe.innerLevels := by
  obtain ⟨same, value, parts, checked, areArguments, collected, isChecked, sameArguments⟩ :=
    eq_of_described_directive described given
  obtain ⟨sameInputs, shallow⟩ := inputs_of_described unique areArguments collected isChecked
  refine ⟨?_, shallow⟩
  rw [same, Directive.skeleton, Directive.skeleton, sameArguments, sameInputs]

/-- A word is that of one kind only. -/
theorem kindOfWord?_word (kind : TypeKind) : kindOfWord? (.text kind.word) = some kind := by
  cases kind <;> decide

end Described

/-- The standard types have no deep references. -/
theorem Standard.typeReferences_levels : ∀ type ∈ Standard.types,
    ∀ reference ∈ type.body.typeReferences, reference.levels ≤ Describe.innerLevels := by
  decide +kernel

namespace Described

/-- A type is described by its name, its kind and what it says, and is made of this again. -/
structure Mirrored (schema : Schema) (type : NamedType) (entry : DescribedType × Outline) :
    Prop where
  name : entry.1.name = type.name
  kind : entry.1.kind = type.kind
  outlined : ∃ value, outline value = .ok entry
  described : ∃ flag fields inputs, Describe.oneOf type = .ok flag ∧
    Describe.bodyFields schema type.body = .ok fields ∧
    Describe.bodyInputs schema type.body = .ok inputs ∧
    entry.1.description = Describe.object (Describe.typeMembers schema type flag fields inputs)

/-- The outline of a described type is that of the type. -/
theorem mirrored_of_outline {type : NamedType} {flag value : Json}
    (isFlag : Describe.oneOf type = .ok flag) {entry : DescribedType × Outline}
    (described : Describe.namedType schema type flag = .ok value)
    (outlined : outline value = .ok entry) : Mirrored schema type entry := by
  obtain ⟨fields, inputs, areFields, areInputs, -, rfl⟩ :=
    Describe.namedType_described (Describe.isPlain_oneOf isFlag) described
  obtain ⟨isDescription, isName, ⟨word, isWord, isKind⟩, -, -⟩ := outline_eq_ok outlined
  have nameSaid : (Describe.object (Describe.typeMembers schema type flag fields inputs)).member
      "name" = .ok (.text type.name) := Describe.member_object rfl
  have kindSaid : (Describe.object (Describe.typeMembers schema type flag fields inputs)).get?
      "kind" = some (.text type.kind.word) := Describe.get?_object _ "kind"
  obtain rfl := Option.some.inj (kindSaid.symm.trans isWord)
  refine ⟨Json.text.inj (Except.ok.inj (isName.symm.trans nameSaid)), ?_, ⟨_, outlined⟩, flag,
    fields, inputs, isFlag, areFields, areInputs, isDescription⟩
  rw [kindOfWord?_word] at isKind
  exact (Option.some.inj isKind).symm

/-- A type is made as it was described, and leads to no type too deeply. -/
theorem type_of_described {type made : NamedType} {entry : DescribedType × Outline}
    (standard : ∀ standard, Standard.type? type.name = some standard → type = standard)
    (unique : Standard.type? type.name = none → type.body.HasUniqueNames)
    (mirrored : Mirrored schema type entry)
    (given : typeDraft types entry.1 entry.2 = .ofType made) :
    made.skeleton = type.skeleton ∧
      ∀ reference ∈ type.body.typeReferences, reference.levels ≤ Describe.innerLevels := by
  obtain ⟨sameName, sameKind, ⟨value, outlined⟩, flag, fields, inputs, -, areFields, areInputs,
    isDescription⟩ := mirrored
  cases isStandard : Standard.type? type.name with
  | some found =>
      obtain rfl := standard found isStandard
      obtain rfl : type = made := by
        simp only [typeDraft, sameName, isStandard] at given
        exact TypeDraft.ofType_injective given
      exact ⟨rfl, Standard.typeReferences_levels type (Standard.type?_eq_some isStandard).1⟩
  | none =>
      obtain ⟨madeName, -, makes⟩ := makes_of_typeDraft outlined given (sameName ▸ isStandard)
      obtain ⟨sameBody, shallow⟩ := body_of_described (unique isStandard) areFields areInputs
        isDescription sameKind makes
      refine ⟨?_, shallow⟩
      rw [NamedType.skeleton, NamedType.skeleton, madeName, sameName, sameBody]

/-- The outlines of the types that are described are those of the types. -/
theorem mirrored_of_types {types : List NamedType} {flags values : List Json}
    {outlines : List (DescribedType × Outline)}
    (areFlags : types.mapM Describe.oneOf = .ok flags)
    (described : (types.zip flags).mapM (fun entry => Describe.namedType schema entry.1 entry.2) =
      .ok values)
    (outlined : List.Forall₂ (fun value entry => outline value = .ok entry) values outlines) :
    List.Forall₂ (Mirrored schema) types outlines := by
  have zipped : (types.zip flags).map Prod.fst = types :=
    List.map_fst_zip (le_of_eq (forall₂_of_mapM areFlags).length_eq)
  rw [← zipped, List.forall₂_map_left_iff]
  refine forall₂_trans_of_mem (forall₂_of_mapM described) outlined ?_
  rintro ⟨type, flag⟩ mem value entry isDescribed isOutlined
  have isFlag := List.forall₂_zip (forall₂_of_mapM areFlags) mem
  exact mirrored_of_outline isFlag isDescribed isOutlined

/-- The types of a legible schema are made as they were described. -/
theorem types_of_described (intact : schema.Intact) (legible : schema.Legible)
    {outlines : List (DescribedType × Outline)} {made : List NamedType}
    (mirrored : List.Forall₂ (Mirrored schema) schema.types outlines)
    (drafts : List.Forall₂ (fun entry type => typeDraft types entry.1 entry.2 = .ofType type)
      outlines made) :
    List.Forall₂ (fun type made => made.skeleton = type.skeleton ∧
      ∀ reference ∈ type.body.typeReferences, reference.levels ≤ Describe.innerLevels)
        schema.types made := by
  refine forall₂_trans_of_mem mirrored drafts fun type mem entry result mirror isDraft => ?_
  refine type_of_described (intact.standard type (intact.definedTypes_eq ▸ mem))
    (fun ordinary => ?_) mirror isDraft
  exact (legible.types type mem (isStandardType_eq_false_iff.mpr ordinary)).2.2

/-- The directives of a schema are made of their descriptions, one by one. -/
theorem forall₂_of_directives {members : List (String × Json)} {values : List Json}
    {made : List Directive}
    (described : schema.directives.mapM (Describe.directive schema) = .ok values)
    (isSaid : members.lookup "directives" = some (.array values))
    (given : Described.directives types (Describe.object members) = .ok made) :
    List.Forall₂ (fun directive made => ∃ value, Describe.directive schema directive = .ok value ∧
      Described.directive types value = .ok made) schema.directives made := by
  obtain ⟨found, isFound, rest⟩ := bind_eq_ok_iff.mp given
  rw [ask, mapError_eq_ok_iff, Describe.lookup_object, isSaid] at isFound
  obtain rfl : Json.array values = found := Except.ok.inj isFound
  have read : values.mapM (Described.directive types) = .ok made := by
    cases values with
    | nil => exact rest
    | cons => exact rest
  exact forall₂_trans_of_mem (forall₂_of_mapM described) (forall₂_of_mapM read)
    fun _ _ value _ isDescribed isRead => ⟨value, isDescribed, isRead⟩

end Described

/-- The types that are described of an intact schema are its types. -/
theorem Intact.indexed_eq (intact : schema.Intact) {indexed : List NamedType}
    (areIndexed : schema.index.mapM Describe.typeOf = .ok indexed) : indexed = schema.types := by
  have each := forall₂_of_mapM areIndexed
  rw [intact.index, List.forall₂_map_left_iff] at each
  rw [← List.map_id indexed, ← List.map_id schema.types]
  exact map_eq_map_of_forall₂ each fun _ _ same => (Except.ok.inj same).symm

/-- A schema that is made of the description of another one: its types and its directives are made
of what is said of those of the other one, one by one. -/
structure MadeAsDescribed (schema reread : Schema)
    (outlines : List (DescribedType × Described.Outline)) : Prop where
  types : List.Forall₂ (Described.Mirrored schema) schema.types outlines
  madeTypes : List.Forall₂ (fun entry type =>
    Described.typeDraft (outlines.map Prod.fst) entry.1 entry.2 = .ofType type)
    outlines reread.types
  directives : List.Forall₂ (fun directive made => ∃ value,
    Describe.directive schema directive = .ok value ∧
      Described.directive (outlines.map Prod.fst) value = .ok made)
    schema.directives reread.directives
  description : reread.description = schema.description
  roots : reread.roots = schema.roots

/-- What is read of the description of an intact schema is made as it was described. -/
theorem madeAsDescribed_of_introspection (intact : schema.Intact) (legible : schema.Legible)
    {value : Json} {reread : Schema} (described : schema.introspection = .ok value)
    (given : ofIntrospection value = .ok reread) :
    ∃ outlines, MadeAsDescribed schema reread outlines := by
  obtain ⟨-, -, indexed, flags, directiveValues, typeValues, areIndexed, areFlags, areDirectives,
    areTypes, rfl⟩ := introspection_eq_ok described
  obtain ⟨members, listing, elements, all, outlines, types, listed, isSchema, isListing,
    areElements, outlined, areOutlines, rfl, drafts, -, closed, isQuery, isMutation,
    isSubscription, areReread, isDescription⟩ := ofIntrospection_eq_ok given
  obtain rfl := intact.indexed_eq areIndexed
  have isObject : Json.object members =
      Describe.object (schema.schemaMembers directiveValues typeValues) :=
    (Option.some.inj ((Describe.get?_object _ "__schema").symm.trans isSchema)).symm
  rw [isObject] at isListing isQuery isMutation isSubscription areReread isDescription
  have typesSaid : (Describe.object (schema.schemaMembers directiveValues typeValues)).member
      "types" = .ok (.array typeValues) := Describe.member_object rfl
  obtain rfl := Except.ok.inj (typesSaid.symm.trans isListing)
  obtain rfl := Except.ok.inj areElements
  have mirrored := Described.mirrored_of_types areFlags areTypes outlined
  obtain rfl : outlines = all := by
    rw [← areOutlines]
    refine Named.ofList_of_nodup ?_
    rw [map_eq_map_of_forall₂ mirrored fun _ _ mirror => mirror.name, ← intact.typeNames_eq]
    exact intact.unique
  have made := Described.types_of_described intact legible mirrored drafts
  have skeletons : listed.map NamedType.skeleton = schema.types.map NamedType.skeleton :=
    map_eq_map_of_forall₂ made fun _ _ both => both.1
  have names : listed.map NamedType.name = schema.typeNames := by
    rw [intact.typeNames_eq]
    simpa [Function.comp_def, NamedType.skeleton] using
      congrArg (List.map TypeSkeleton.name) skeletons
  have areListed : reread.types = listed := by
    refine closed (fun type mem name nameMem => ?_) (names ▸ intact.describes)
    obtain ⟨before, beforeMem, same, -⟩ := exists_of_mem_forall₂ made mem
    rw [NamedType.references_eq_of_skeleton same] at nameMem
    exact names ▸ intact.closed.types before (intact.definedTypes_eq ▸ beforeMem) name nameMem
  refine ⟨outlines, mirrored, areListed ▸ drafts,
    Described.forall₂_of_directives areDirectives rfl areReread,
    isDescription.eq (Describe.lookup_object _ _), ?_⟩
  rw [roots, roots, Described.eq_of_root rfl isQuery, Described.eq_of_root rfl isMutation,
    Described.eq_of_root rfl isSubscription]

/-- What is read of the description of an intact schema has the skeleton of the schema, and no
reference of the schema is too deep. -/
theorem reread_of_introspection (intact : schema.Intact) (legible : schema.Legible)
    {value : Json} {reread : Schema} (described : schema.introspection = .ok value)
    (given : ofIntrospection value = .ok reread) :
    reread.roots = schema.roots ∧
      reread.directives.map Directive.skeleton = schema.directives.map Directive.skeleton ∧
      reread.types.map NamedType.skeleton = schema.types.map NamedType.skeleton ∧
      ∀ reference ∈ schema.typeReferences, reference.levels ≤ Describe.innerLevels := by
  obtain ⟨outlines, made⟩ := madeAsDescribed_of_introspection intact legible described given
  have types := Described.types_of_described intact legible made.types made.madeTypes
  have directives : List.Forall₂ (fun directive made => made.skeleton = directive.skeleton ∧
      ∀ argument ∈ directive.arguments, argument.type.levels ≤ Describe.innerLevels)
        schema.directives reread.directives := by
    refine forall₂_imp_of_mem made.directives legible.arguments ?_
    rintro directive result unique ⟨value, isDescribed, isMade⟩
    exact Described.directive_of_described unique isDescribed isMade
  refine ⟨made.roots, map_eq_map_of_forall₂ directives fun _ _ both => both.1,
    map_eq_map_of_forall₂ types fun _ _ both => both.1, fun reference mem => ?_⟩
  rcases List.mem_append.mp mem with inTypes | inDirectives
  · obtain ⟨type, typeMem, inBody⟩ := List.mem_flatMap.mp inTypes
    obtain ⟨_, -, -, shallow⟩ := exists_of_mem_forall₂ types.flip typeMem
    exact shallow reference inBody
  · obtain ⟨directive, directiveMem, inArguments⟩ := List.mem_flatMap.mp inDirectives
    obtain ⟨argument, argumentMem, rfl⟩ := List.mem_map.mp inArguments
    obtain ⟨_, -, -, shallow⟩ := exists_of_mem_forall₂ directives.flip directiveMem
    exact shallow argument argumentMem

/-- Reading the text of a description is making a schema of the description. -/
theorem read_of_introspectionText {volume : Volume} {text : Text}
    (written : schema.introspectionText = .ok text)
    (noFile : ∀ content, volume.read text ≠ .ok content) :
    ∃ value, schema.introspection = .ok value ∧
      (Source.introspection text).read volume = (ofIntrospection value).mapError .schema := by
  obtain ⟨value, described, isRead⟩ :=
    readIntrospection_of_toIntrospection (mapError_eq_ok_iff.mp written)
  refine ⟨value, described, ?_⟩
  rw [← isRead, Source.read, Source.pathOrText_of_noFile noFile]
  rfl

/-- The description of an untampered schema is read as a schema with its skeletons. -/
theorem reread_of_introspectionText {volume : Volume} {text : Text} {reread : Schema}
    (untampered : Untampered schema) (written : schema.introspectionText = .ok text)
    (noFile : ∀ content, volume.read text ≠ .ok content)
    (given : (Source.introspection text).read volume = .ok reread) :
    reread.roots = schema.roots ∧
      reread.directives.map Directive.skeleton = schema.directives.map Directive.skeleton ∧
      reread.types.map NamedType.skeleton = schema.types.map NamedType.skeleton ∧
      ∀ reference ∈ schema.typeReferences, reference.levels ≤ Describe.innerLevels := by
  obtain ⟨value, described, isRead⟩ := read_of_introspectionText written noFile
  rw [isRead, mapError_eq_ok_iff] at given
  exact reread_of_introspection untampered.intact untampered.legible described given

/-- A schema that came about without tampering, described and read again, has the same operations,
the same directives and the same types as before, standard ones included, in the same order and
with the same parts. If a reference goes deeper than references are described, the description
cannot be read. -/
theorem introspection_keeps_skeletons {volume : Volume} {text : Text} {schema : Schema}
    (untampered : Untampered schema) (written : schema.introspectionText = .ok text)
    (noFile : ∀ content, volume.read text ≠ .ok content) :
    (∀ reread, (Source.introspection text).read volume = .ok reread →
      reread.roots = schema.roots ∧
      reread.directives.map Directive.skeleton = schema.directives.map Directive.skeleton ∧
      reread.typeNames = schema.typeNames ∧
      reread.definedTypes.map NamedType.skeleton = schema.definedTypes.map NamedType.skeleton) ∧
    ((∃ reference ∈ schema.typeReferences, Describe.innerLevels < reference.levels) →
      ∃ fault, (Source.introspection text).read volume = .error fault) := by
  constructor
  · intro reread given
    obtain ⟨sameRoots, sameDirectives, sameTypes, -⟩ :=
      reread_of_introspectionText untampered written noFile given
    have intact := untampered.intact
    have rereadIntact := Source.read_intact given
    have sameNames : reread.types.map NamedType.name = schema.types.map NamedType.name := by
      simpa [Function.comp_def, NamedType.skeleton] using
        congrArg (List.map TypeSkeleton.name) sameTypes
    rw [rereadIntact.typeNames_eq, intact.typeNames_eq, rereadIntact.definedTypes_eq,
      intact.definedTypes_eq]
    exact ⟨sameRoots, sameDirectives, sameNames, sameTypes⟩
  · rintro ⟨reference, mem, deep⟩
    cases outcome : (Source.introspection text).read volume with
    | error fault => exact ⟨fault, rfl⟩
    | ok reread =>
        obtain ⟨-, -, -, shallow⟩ := reread_of_introspectionText untampered written noFile outcome
        exact absurd (shallow reference mem) (Nat.not_le_of_lt deep)

/-- A document with a reference that goes deeper than references are described. -/
def deepDocument : Text :=
  "type Query { deep: [[[[[[[[[[Int]]]]]]]]]] }"

/-- The description of a small schema is read again as the schema, and that of a schema with a deep
reference is not read. -/
theorem introspection_keeps_starterDocument :
    (∃ schema text reread, (Source.document starterDocument false).read noFiles = .ok schema ∧
      schema.introspectionText = .ok text ∧ (∀ content, noFiles.read text ≠ .ok content) ∧
      (Source.introspection text).read noFiles = .ok reread ∧
      reread.roots = schema.roots ∧
      reread.directives.map Directive.skeleton = schema.directives.map Directive.skeleton ∧
      reread.typeNames = schema.typeNames ∧
      reread.definedTypes.map NamedType.skeleton = schema.definedTypes.map NamedType.skeleton) ∧
    ∃ schema text fault, (Source.document deepDocument false).read noFiles = .ok schema ∧
      schema.introspectionText = .ok text ∧
      (Source.introspection text).read noFiles = .error fault := by
  constructor
  · have succeeds : (do
        let schema ← (Source.document starterDocument false).read noFiles
        let _ ← schema.introspectionText
        let value ← schema.introspection.mapError .description
        let _ ← (ofIntrospection value).mapError .schema
        return () : Except Fault Unit).toOption = some () := by
      decide +kernel
    obtain ⟨schema, isRead, rest⟩ := bind_eq_ok_iff.mp (eq_ok_of_toOption succeeds)
    obtain ⟨text, written, rest⟩ := bind_eq_ok_iff.mp rest
    obtain ⟨value, isValue, rest⟩ := bind_eq_ok_iff.mp rest
    obtain ⟨reread, isReread, -⟩ := bind_eq_ok_iff.mp rest
    obtain ⟨described, isDescribed, reads⟩ := read_of_introspectionText written (noFiles_read text)
    obtain rfl := Except.ok.inj (isDescribed.symm.trans (mapError_eq_ok_iff.mp isValue))
    rw [← reads] at isReread
    exact ⟨schema, text, reread, isRead, written, noFiles_read text, isReread,
      (introspection_keeps_skeletons (.read isRead) written (noFiles_read text)).1 reread isReread⟩
  · have succeeds : (do
        let schema ← (Source.document deepDocument false).read noFiles
        let _ ← schema.introspectionText
        return decide (∃ reference ∈ schema.typeReferences,
          Describe.innerLevels < reference.levels) : Except Fault Bool).toOption = some true := by
      decide +kernel
    obtain ⟨schema, isRead, rest⟩ := bind_eq_ok_iff.mp (eq_ok_of_toOption succeeds)
    obtain ⟨text, written, isDeep⟩ := bind_eq_ok_iff.mp rest
    obtain ⟨fault, fails⟩ := (introspection_keeps_skeletons (.read isRead) written
      (noFiles_read text)).2 (of_decide_eq_true (pure_eq_ok_iff.mp isDeep))
    exact ⟨schema, text, fault, isRead, written, fails⟩

end Schema

end SchemaOrder
