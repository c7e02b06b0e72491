import SchemaOrder.Proofs.Storing.DescribedSkeletons
import SchemaOrder.Proofs.Storing.WritableDefaults

/-!
# What a description says

A faithful schema whose description is read again resembles what is made of it: all texts that are
described are said again, and a default is described by the text of the literal that is written for
it.
-/

namespace SchemaOrder.Schema

open Outcome

variable {schema : Schema}

namespace Describe

/-- What is said about taking exactly one field counts as what the input object says. -/
theorem isFalsy_of_oneOf {type : NamedType} {fields : List InputValue} {said flag : Json}
    (isBody : type.body = .inputObject fields said) (isFlag : oneOf type = .ok flag) :
    flag.isFalsy = said.isFalsy := by
  rw [oneOf, isBody] at isFlag
  cases said with
  | null | boolean =>
      cases isFlag
      rfl
  | integer number =>
      cases isFlag
      simp [Json.isFalsy]
  | float number =>
      dsimp only at isFlag
      split at isFlag
      · cases isFlag
        rw [Json.isFalsy, Bool.not_not]
      · cases isFlag
  | text | array | object => cases isFlag

end Describe

namespace Described

variable {types : List DescribedType}

/-- What is said about taking exactly one field counts as what the described input object says. -/
theorem isFalsy_of_described {type : NamedType} {fields : List InputValue} {said flag value : Json}
    {members : List (String × Json)} (isBody : type.body = .inputObject fields said)
    (isFlag : Describe.oneOf type = .ok flag) (isDescription : value = Describe.object members)
    (flagSaid : members.lookup "isOneOf" = some flag) :
    (oneOf value).isFalsy = said.isFalsy := by
  have isSaid : value.get? "isOneOf" = some flag := by
    rw [isDescription, ← flagSaid]
    exact Describe.get?_object _ _
  rw [oneOf, isSaid, Option.getD_some, Describe.isFalsy_of_oneOf isBody isFlag]

/-- Where an argument or an input field has no default, none is made of its description. -/
theorem noDefault_of_describedInput {coercion : InputTypes SchemaFault} {place subject : Text}
    {input made : InputValue} {value : Json}
    (described : Describe.inputValue schema input = .ok value)
    (given : inputValue coercion types place subject value = .ok made)
    (noDefault : input.default? = none) : made.default? = none := by
  obtain ⟨_, _, default, -, -, -, -, isDefault, -, defaultSaid, -⟩ := inputValue_eq_ok given
  obtain ⟨-, -, written, isWritten, writtenSaid⟩ := Describe.inputValue_texts described
  rw [defaultText, noDefault] at isWritten
  cases isWritten
  obtain rfl := Except.ok.inj (writtenSaid.symm.trans defaultSaid)
  exact (Except.ok.inj isDefault).symm

section Levels

/-- The names that coercion sees of a described enum are those of its values. -/
theorem enumNames_described {members : List (String × Json)} {values : List EnumValue}
    (areValues : members.lookup "enumValues" = some (.array (values.map Describe.enumValue))) :
    enumNames (Describe.object members) = values.map EnumValue.name := by
  have isSaid : (Describe.object members).get? "enumValues" =
      some (.array (values.map Describe.enumValue)) := (Describe.get?_object _ _).trans areValues
  unfold enumNames
  rw [isSaid]
  dsimp only
  rw [List.filterMap_map, ← List.filterMap_eq_map]
  refine List.filterMap_congr fun value _ => ?_
  rw [Function.comp_apply, get?_of_member (Describe.enumValue_described value).2]
  rfl

/-- What coercion sees of the described types of a schema are the types of the schema. -/
theorem level_show_of_mirrored (intact : schema.Intact) (legible : schema.Legible)
    {outlines : List (DescribedType × Outline)}
    (mirrored : List.Forall₂ (Mirrored schema) schema.types outlines) (fuel : Nat) :
    (level (outlines.map Prod.fst) fuel).Show SameFields schema := by
  intro name type isType
  cases isStandard : Standard.type? name with
  | some standard => exact shows_of_standard intact isStandard isType fuel
  | none =>
      obtain ⟨mem, rfl⟩ := intact.type?_eq_some_iff.mp isType
      obtain ⟨-, -, unique⟩ := legible.types type mem (isStandardType_eq_false_iff.mpr isStandard)
      obtain ⟨entry, entryMem, mirror⟩ := exists_of_mem_forall₂ mirrored.flip mem
      obtain ⟨sameName, sameKind, -, flag, fields, inputs, isFlag, -, areInputs, isDescription⟩ :=
        mirror
      have sameNames : (outlines.map Prod.fst).map DescribedType.name =
          schema.types.map NamedType.name := by
        rw [List.map_map]
        exact map_eq_map_of_forall₂ mirrored fun _ _ mirror => mirror.name
      have uniqueNames : ((outlines.map Prod.fst).map DescribedType.name).Nodup := by
        rw [sameNames, ← intact.typeNames_eq]
        exact intact.unique
      have found : Named.find? DescribedType.name type.name (outlines.map Prod.fst) =
          some entry.1 :=
        (Named.find?_eq_some_iff uniqueNames).mpr ⟨List.mem_map_of_mem entryMem, sameName⟩
      unfold level inputShape
      simp only [isStandard, found, sameKind]
      obtain ⟨name, description, body⟩ := type
      cases body with
      | scalar specifiedBy => exact .scalar specifiedBy
      | object | interface | union => exact .output rfl
      | enum values =>
          refine .enum fun name => ?_
          rw [isDescription, enumNames_described (by rfl)]
      | inputObject all oneOf =>
          refine .inputObject ?_ fun known isKnown => ?_
          · rw [isFalsy_of_described rfl isFlag isDescription rfl]
          · cases fuel with
            | zero => cases isKnown
            | succ less =>
                obtain ⟨source, parts, checked, isSource, collected, isChecked, rfl⟩ :=
                  inputFields_eq_ok isKnown
                rw [isDescription, Describe.member_object rfl] at isSource
                cases isSource
                refine (forall₂_of_describedInputs unique areInputs collected isChecked).imp ?_
                rintro own _ ⟨value, seen, isDescribed, isMade, rfl⟩
                have sameType := (type_of_describedInput isDescribed isMade).1
                have noDefault := noDefault_of_describedInput isDescribed isMade
                exact ⟨rfl, sameType, noDefault⟩

end Levels

section Made

variable (faithful : schema.IsFaithful) (shows : (inputTypes types).Show SameFields schema)
include faithful shows

/-- An argument or an input field is made as it was described, default and all. -/
theorem inputAgrees_of_described {place subject : Text} {input unnamed : InputValue} {value : Json}
    (isOwn : schema.IsOwnInput input) (described : Describe.inputValue schema input = .ok value)
    (given : inputValue (inputTypes types) types place subject value = .ok unnamed) :
    input.Agrees .mirrored { unnamed with name := input.name } := by
  have sameType := (type_of_describedInput described given).1
  have noDefault := noDefault_of_describedInput described given
  obtain ⟨_, _, default, -, -, -, -, isDefault, -, defaultSaid, isDescription, isReason⟩ :=
    inputValue_eq_ok given
  obtain ⟨descriptionSaid, reasonSaid, written, isWritten, writtenSaid⟩ :=
    Describe.inputValue_texts described
  refine ⟨rfl, sameType.symm, ?_, (isDescription.eq descriptionSaid).symm,
    (isReason.eq reasonSaid).symm⟩
  cases isValue : input.default? with
  | none =>
      rw [noDefault isValue]
      exact .none
  | some before =>
      obtain ⟨literal, isLiteral, alike⟩ := faithful.exists_writtenDefault shows isOwn isValue
      have readable := (faithful.legible.readableInput isOwn).default literal isLiteral
      rw [defaultText_eq isWritten, isLiteral] at writtenSaid
      obtain rfl := Except.ok.inj (writtenSaid.symm.trans defaultSaid)
      rw [sameType] at isDefault
      unfold defaultValue at isDefault
      simp only [Option.map_some, Json.ofText?] at isDefault
      cases parsed : Document.parseLiteral literal.write with
      | error fault =>
          rw [parsed] at isDefault
          cases isDefault
      | ok read =>
          rw [parsed, Document.parseLiteral_write readable parsed] at isDefault
          obtain ⟨after, isAfter, isAlike⟩ := alike _ isDefault
          rw [isAfter]
          exact .some isAlike

/-- Arguments or input fields are made as they were described. -/
theorem inputsAgree_of_described {place subject : Text} {inputs : List InputValue} {value : Json}
    {parts : List (Json × InputValue)} {checked : List (Text × InputValue)}
    (areOwn : ∀ input ∈ inputs, schema.IsOwnInput input)
    (unique : (inputs.map InputValue.name).Nodup)
    (described : Describe.inputValues schema inputs = .ok value)
    (collected : collect (inputValue (inputTypes types) types place subject) value = .ok parts)
    (isChecked : checkedParts parts = .ok checked) :
    Arrangement.inOrder.Relates (InputValue.Agrees .mirrored) inputs (named checked) := by
  refine forall₂_imp_of_mem (forall₂_of_describedInputs unique described collected isChecked)
    areOwn ?_
  rintro input _ isOwn ⟨value, unnamed, isDescribed, isMade, rfl⟩
  exact inputAgrees_of_described faithful shows isOwn isDescribed isMade

/-- The fields of a described type are made as they were described. -/
theorem fieldsAgree_of_described {fields made : List Field} {value : Json} {type : DescribedType}
    (areOwn : ∀ argument ∈ fields.flatMap Field.arguments, schema.IsOwnInput argument)
    (unique : (fields.map Field.name).Nodup)
    (uniqueArguments : ∀ field ∈ fields, (field.arguments.map InputValue.name).Nodup)
    (fieldsSaid : type.description.lookup "fields" = .ok value)
    (described : Describe.fields schema fields = .ok value)
    (holds : Described.fields types type = .ok made) :
    Arrangement.inOrder.Relates (Field.Agrees .mirrored) fields made := by
  refine forall₂_imp_of_mem (forall₂_of_describedFields unique fieldsSaid described holds)
    (fun field mem => mem) ?_
  rintro field _ mem ⟨value, unnamed, isDescribed, isMade, rfl⟩
  obtain ⟨⟨sameType, -⟩, sameDescription, sameReason, value, parts, checked, areArguments,
    collected, isChecked, sameArguments⟩ := field_of_described isDescribed isMade
  refine ⟨rfl, sameType.symm, ?_, sameDescription.symm, sameReason.symm⟩
  rw [show ({ unnamed with name := field.name } : Field).arguments = _ from sameArguments]
  exact inputsAgree_of_described faithful shows
    (fun argument inField => areOwn argument (List.mem_flatMap.mpr ⟨field, mem, inField⟩))
    (uniqueArguments field mem) areArguments collected isChecked

/-- A body is made as it was described: the same is written of both. -/
theorem bodyAgrees_of_described {type : NamedType} {described : DescribedType} {made : Body}
    {flag fields inputs : Json} (areOwn : ∀ input ∈ type.body.inputs, schema.IsOwnInput input)
    (unique : type.body.HasUniqueNames) (isFlag : Describe.oneOf type = .ok flag)
    (areFields : Describe.bodyFields schema type.body = .ok fields)
    (areInputs : Describe.bodyInputs schema type.body = .ok inputs)
    (isDescription : described.description =
      Describe.object (Describe.typeMembers schema type flag fields inputs))
    (isKind : described.kind = type.kind) (makes : Makes types described made) :
    type.body.spoken.Agrees .mirrored made.spoken := by
  obtain ⟨name, description, body⟩ := type
  have looks := lookup_of_described isDescription
  replace isKind : described.kind = body.kind := isKind
  cases makes with
  | scalar specifiedBy isScalar said =>
      cases body <;> cases isKind.symm.trans isScalar
      obtain rfl := said.eq (looks "specifiedByURL")
      exact .scalar _
  | object isObject implements isMade =>
      cases body <;> cases isKind.symm.trans isObject
      have sameFields := fieldsAgree_of_described faithful shows areOwn unique.1 unique.2
        (looks "fields") areFields isMade
      obtain rfl := interfaces_of_described (looks "interfaces") implements
      refine (Body.Agrees.object ?_ sameFields).spoken
      exact Arrangement.Relates.inOrder_eq_iff_eq.mpr rfl
  | interface isInterface implements isMade =>
      cases body <;> cases isKind.symm.trans isInterface
      have sameFields := fieldsAgree_of_described faithful shows areOwn unique.1 unique.2
        (looks "fields") areFields isMade
      obtain rfl := interfaces_of_described (looks "interfaces") implements
      refine (Body.Agrees.interface ?_ sameFields).spoken
      exact Arrangement.Relates.inOrder_eq_iff_eq.mpr rfl
  | union isUnion joins =>
      cases body <;> cases isKind.symm.trans isUnion
      obtain ⟨source, elements, isSource, areElements, references⟩ := members_eq_ok joins
      obtain rfl := eq_of_member_described isDescription rfl isSource
      obtain rfl := Except.ok.inj areElements
      rw [eq_of_names references]
      exact .union (Arrangement.Relates.inOrder_eq_iff_eq.mpr rfl)
  | enum isEnum isSource collected isMade =>
      cases body <;> cases isKind.symm.trans isEnum
      obtain rfl := Except.ok.inj ((looks "enumValues").symm.trans isSource)
      obtain rfl := values_of_described unique collected isMade
      exact .enum (Arrangement.Relates.inOrder_eq_iff_eq.mpr rfl)
  | inputObject isInputObject isMade =>
      cases body <;> cases isKind.symm.trans isInputObject
      obtain ⟨source, parts, checked, isSource, collected, isChecked, rfl⟩ :=
        inputFields_eq_ok isMade
      obtain rfl := eq_of_member_described isDescription rfl isSource
      rw [Body.spoken, Body.spoken, isFalsy_of_described rfl isFlag isDescription rfl]
      exact .inputObject
        (inputsAgree_of_described faithful shows areOwn unique areInputs collected isChecked) _

/-- A type is made as it was described. A standard type is made as such, whatever is said of it. -/
theorem typeResembles_of_described {type made : NamedType} {entry : DescribedType × Outline}
    (mem : type ∈ schema.types) (mirrored : Mirrored schema type entry)
    (given : typeDraft types entry.1 entry.2 = .ofType made) : type.Resembles made := by
  obtain ⟨sameName, sameKind, ⟨value, outlined⟩, flag, fields, inputs, isFlag, areFields, areInputs,
    isDescription⟩ := mirrored
  cases isStandard : Standard.type? type.name with
  | some standard =>
      obtain rfl := faithful.intact.standard type (faithful.intact.definedTypes_eq ▸ mem) _
        isStandard
      simp only [typeDraft, sameName, isStandard] at given
      obtain rfl := TypeDraft.ofType_injective given
      exact .refl type
  | none =>
      have ordinary := isStandardType_eq_false_iff.mpr isStandard
      obtain ⟨-, -, unique⟩ := faithful.legible.types type mem ordinary
      obtain ⟨madeName, saysText, makes⟩ :=
        makes_of_typeDraft outlined given (sameName ▸ isStandard)
      have isSaid : entry.1.description.lookup "description" =
          .ok (Json.ofText? type.description) := by
        rw [isDescription, Describe.lookup_object]
        rfl
      refine ⟨(madeName.trans sameName).symm, (saysText.eq isSaid).symm,
        bodyAgrees_of_described faithful shows
          (fun input inType => .inl ⟨type, mem, ordinary, inType⟩) unique isFlag areFields areInputs
          isDescription sameKind makes, fun isIntrospection => ?_⟩
      have isIntrospection : isIntrospectionType type.name = true := isIntrospection
      rw [isStandardType, isIntrospection, Bool.or_true] at ordinary
      cases ordinary

/-- A directive is made as it was described. -/
theorem directiveResembles_of_described {directive made : Directive} {value : Json}
    (mem : directive ∈ schema.directives) (ordinary : isStandardDirective directive.name = false)
    (described : Describe.directive schema directive = .ok value)
    (given : Described.directive types value = .ok made) : directive.Resembles made := by
  have unique := faithful.legible.arguments directive mem
  obtain ⟨same, value, parts, checked, areArguments, collected, isChecked, sameArguments⟩ :=
    eq_of_described_directive described given
  have agree : directive.Agrees .mirrored made := by
    rw [same]
    refine ⟨rfl, rfl, ?_, rfl, Arrangement.Relates.inOrder_eq_iff_eq.mpr rfl, rfl⟩
    rw [sameArguments]
    exact inputsAgree_of_described faithful shows
      (fun argument inDirective => .inr ⟨directive, mem, ordinary, inDirective⟩) unique areArguments
      collected isChecked
  exact agree.spoken

end Made

end Described

/-- A faithful schema resembles what is read of its description. -/
theorem IsFaithful.resembles_of_introspection (faithful : schema.IsFaithful) {value : Json}
    {reread : Schema} (described : schema.introspection = .ok value)
    (given : ofIntrospection value = .ok reread) : schema.Resembles reread := by
  have intact := faithful.intact
  obtain ⟨outlines, made⟩ :=
    madeAsDescribed_of_introspection intact faithful.legible described given
  have shows := Described.level_show_of_mirrored intact faithful.legible made.types
    ((outlines.map Prod.fst).length + 1)
  refine ⟨writeSchema_congr made.description.symm made.roots.symm, ?_, ?_⟩
  · have all : List.Forall₂ NamedType.Resembles schema.types reread.types :=
      forall₂_trans_of_mem made.types made.madeTypes fun type mem _ _ mirrored isMade =>
        Described.typeResembles_of_described faithful shows mem mirrored isMade
    rw [userTypes, userTypes, intact.definedTypes_eq,
      (ofIntrospection_intact given).definedTypes_eq]
    refine Arrangement.Relates.filter _ all fun left right both => ?_
    have sameName : left.name = right.name := both.name
    rw [sameName]
  · have all : List.Forall₂ (fun directive made => directive.name = made.name ∧
        (isStandardDirective directive.name = false → directive.Resembles made))
          schema.directives reread.directives := by
      refine (forall₂_mem made.directives).imp ?_
      rintro directive result ⟨⟨mem, -⟩, value, isDescribed, isMade⟩
      obtain ⟨same, -⟩ := Described.eq_of_described_directive isDescribed isMade
      exact ⟨(congrArg Directive.name same).symm, fun ordinary =>
        Described.directiveResembles_of_described faithful shows mem ordinary isDescribed isMade⟩
    have ofUser := Arrangement.Relates.filter (fun directive => !isStandardDirective directive.name)
      all fun left right both => by rw [both.1]
    refine (forall₂_mem ofUser).imp ?_
    rintro directive result ⟨⟨mem, -⟩, -, resembles⟩
    exact resembles (by simpa using (List.mem_filter.mp mem).2)

end SchemaOrder.Schema
