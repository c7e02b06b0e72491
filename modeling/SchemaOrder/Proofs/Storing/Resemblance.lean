import SchemaOrder.Proofs.Schema.FittingDefaults
import SchemaOrder.Proofs.Schema.SpokenParts
import SchemaOrder.Proofs.Sorting.Rearrangement
import SchemaOrder.Proofs.Sorting.SortedLegibility
import SchemaOrder.Proofs.Storing.Skeletons

/-!
# Schemas of which the same is written

Two schemas resemble each other if the same is written of the types and the directives that a user
has named, in the same order, and of the schemas themselves. Standard types are not compared: one of
the schemas may hold some that the other one does not refer to. Resembling schemas are written as
the same document, and so are their sorted copies.
-/

namespace SchemaOrder.Schema

open Outcome

/-- Two types of which the same is written. -/
def NamedType.Resembles (left right : NamedType) : Prop :=
  left.spoken.Agrees .mirrored right.spoken

/-- Two directives of which the same is written. -/
def Directive.Resembles (left right : Directive) : Prop :=
  left.spoken.Agrees .mirrored right.spoken

/-- Two schemas of which the same is written. -/
structure Resembles (left right : Schema) : Prop where
  schema : left.writeSchema = right.writeSchema
  types : List.Forall₂ NamedType.Resembles left.userTypes right.userTypes
  directives : List.Forall₂ Directive.Resembles left.userDirectives right.userDirectives

/-- A type resembles itself. -/
theorem NamedType.Resembles.refl (type : NamedType) : type.Resembles type :=
  NamedType.Agrees.refl Value.Alike.same type.spoken

/-- A directive resembles itself. -/
theorem Directive.Resembles.refl (directive : Directive) : directive.Resembles directive :=
  Directive.Agrees.refl Value.Alike.same directive.spoken

/-- What is written of a body is of its kind. -/
@[simp] theorem Body.kind_spoken (body : Body) : body.spoken.kind = body.kind := by
  cases body <;> rfl

/-- Resembling types are of one kind. -/
theorem NamedType.Resembles.kind {left right : NamedType} (resembles : left.Resembles right) :
    left.kind = right.kind := by
  have sameKind := NamedType.Agrees.kind resembles
  unfold NamedType.kind at sameKind ⊢
  simpa [NamedType.spoken] using sameKind

/-- Resembling types have the same input fields. -/
theorem NamedType.Resembles.inputFields {left right : NamedType}
    (resembles : left.Resembles right) :
    SameInputFields left.inputFields right.inputFields := by
  obtain ⟨_, _, leftBody⟩ := left
  obtain ⟨_, _, rightBody⟩ := right
  have bodies : leftBody.spoken.Agrees .mirrored rightBody.spoken := resembles.body
  have ofInputs : ∀ {fields fields' : List InputValue} {flag flag' : Json},
      (Body.inputObject fields flag).Agrees .mirrored (.inputObject fields' flag') →
        SameInputFields fields fields' := by
    rintro _ _ _ _ (_ | _ | _ | _ | _ | related)
    exact related.imp fun _ _ agree => ⟨agree.name, agree.type⟩
  cases leftBody with
  | inputObject fields oneOf =>
      cases rightBody with
      | inputObject fields' oneOf' => exact ofInputs bodies
      | _ => cases bodies
  | _ => cases rightBody <;> first | exact .nil | cases bodies

/-- Arguments are written with their types. -/
theorem exists_of_mem_spokenArguments {arguments : List InputValue} {input : InputValue}
    (mem : input ∈ spokenArguments arguments) : ∃ own ∈ arguments, own.type = input.type := by
  obtain ⟨own, ownMem, rfl⟩ := List.mem_map.mp mem
  exact ⟨own, ownMem, rfl⟩

/-- The arguments and input fields of a body are written with their types. -/
theorem Body.exists_of_mem_spoken {body : Body} {input : InputValue}
    (mem : input ∈ body.spoken.inputs) : ∃ own ∈ body.inputs, own.type = input.type := by
  cases body with
  | object interfaces fields | interface interfaces fields =>
      obtain ⟨field, fieldMem, inField⟩ := List.mem_flatMap.mp mem
      obtain ⟨original, originalMem, rfl⟩ := List.mem_map.mp fieldMem
      obtain ⟨own, ownMem, sameType⟩ := exists_of_mem_spokenArguments inField
      exact ⟨own, List.mem_flatMap.mpr ⟨original, originalMem, ownMem⟩, sameType⟩
  | inputObject fields oneOf => exact ⟨input, mem, rfl⟩
  | scalar | union | enum => cases mem

/-- Arguments that agree have the same types. -/
theorem exists_of_mem_agreeing {lefts rights : List InputValue}
    (related : Arrangement.inOrder.Relates (InputValue.Agrees .mirrored) lefts rights)
    {input : InputValue} (mem : input ∈ lefts) : ∃ other ∈ rights, other.type = input.type := by
  obtain ⟨other, otherMem, agree⟩ := exists_of_mem_forall₂ (List.Forall₂.flip related) mem
  exact ⟨other, otherMem, agree.type.symm⟩

/-- The arguments and input fields of bodies that agree have the same types. -/
theorem Body.Agrees.exists_of_mem_inputs {left right : Body} (agree : left.Agrees .mirrored right)
    {input : InputValue} (mem : input ∈ left.inputs) :
    ∃ other ∈ right.inputs, other.type = input.type := by
  have inFields : ∀ {fields fields' : List Field},
      Arrangement.inOrder.Relates (Field.Agrees .mirrored) fields fields' →
      input ∈ fields.flatMap Field.arguments →
        ∃ other ∈ fields'.flatMap Field.arguments, other.type = input.type := by
    intro fields fields' related inFields
    obtain ⟨field, fieldMem, inField⟩ := List.mem_flatMap.mp inFields
    obtain ⟨field', fieldMem', agree⟩ :=
      exists_of_mem_forall₂ (List.Forall₂.flip related) fieldMem
    obtain ⟨other, otherMem, sameType⟩ := exists_of_mem_agreeing agree.arguments inField
    exact ⟨other, List.mem_flatMap.mpr ⟨field', fieldMem', otherMem⟩, sameType⟩
  cases agree with
  | object _ related | interface _ related => exact inFields related mem
  | inputObject related oneOf => exact exists_of_mem_agreeing related mem
  | scalar | union | enum => cases mem

/-- The entries that are written of an intact schema are the types that a user has named. -/
theorem Intact.writtenEntries_eq {schema : Schema} (intact : schema.Intact) :
    (schema.index.filter fun entry => !isStandardType entry.name) =
      schema.userTypes.map .defined := by
  have areTypes := intact.userTypes_eq
  rw [intact.index, List.filter_map, List.filterMap_map] at areTypes
  have isType : Entry.type? ∘ Entry.defined = some := rfl
  rw [isType, List.filterMap_some] at areTypes
  rw [intact.index, List.filter_map, areTypes]

/-- A type that a user has named is one of the types of an intact schema. -/
theorem Intact.type?_of_userType {schema : Schema} (intact : schema.Intact) {type : NamedType}
    (mem : type ∈ schema.userTypes) : schema.type? type.name = some type :=
  intact.type?_eq_some_iff.mpr ⟨intact.definedTypes_eq ▸ (List.mem_filter.mp mem).1, rfl⟩

/-- A type of an intact schema without a standard name is one that a user has named. -/
theorem Intact.mem_userTypes {schema : Schema} (intact : schema.Intact) {name : Text}
    {type : NamedType} (isType : schema.type? name = some type)
    (ordinary : isStandardType name = false) : type ∈ schema.userTypes := by
  obtain ⟨mem, rfl⟩ := intact.type?_eq_some_iff.mp isType
  rw [isStandardType, Bool.or_eq_false_iff] at ordinary
  refine List.mem_filter.mpr ⟨intact.definedTypes_eq ▸ mem, ?_⟩
  rw [ordinary.1, ordinary.2]
  rfl

/-- The types of the arguments and input fields that are written of an intact schema are there. -/
theorem Intact.isSome_of_spoken {schema : Schema} (intact : schema.Intact) {type : NamedType}
    (mem : type ∈ schema.userTypes) {input : InputValue}
    (inType : input ∈ type.spoken.body.inputs) : (schema.type? input.type.base).isSome := by
  obtain ⟨own, ownMem, sameType⟩ := Body.exists_of_mem_spoken inType
  rw [← sameType]
  exact intact.isSome_type?_of_isOwnInput (.inl ⟨type,
    intact.definedTypes_eq ▸ (List.mem_filter.mp mem).1, ordinary_of_userType mem, ownMem⟩)

/-- The types of the arguments that are written of directives of an intact schema are there. -/
theorem Intact.isSome_of_spokenArguments {schema : Schema} (intact : schema.Intact)
    {directive : Directive} (mem : directive ∈ schema.userDirectives) {input : InputValue}
    (inDirective : input ∈ directive.spoken.arguments) :
    (schema.type? input.type.base).isSome := by
  obtain ⟨own, ownMem, sameType⟩ := exists_of_mem_spokenArguments inDirective
  obtain ⟨inDirectives, ordinary⟩ := List.mem_filter.mp mem
  rw [← sameType]
  exact intact.isSome_type?_of_isOwnInput (.inr ⟨directive, inDirectives, by simpa using ordinary,
    ownMem⟩)

namespace Resembles

variable {left right : Schema}

/-- Whether both schemas have a type with a name. -/
def KnowBoth (left right : Schema) (name : Text) : Prop :=
  (left.type? name).isSome ∧ (right.type? name).isSome

section Intact

variable (resembles : left.Resembles right) (leftIntact : left.Intact) (rightIntact : right.Intact)
include resembles leftIntact rightIntact

/-- Where both schemas have a type with a name, the types resemble each other. -/
theorem types_resemble {name : Text} {type type' : NamedType} (isType : left.type? name = some type)
    (isType' : right.type? name = some type') : type.Resembles type' := by
  cases isStandard : Standard.type? name with
  | some standard =>
      obtain ⟨mem, rfl⟩ := leftIntact.type?_eq_some_iff.mp isType
      obtain ⟨mem', sameName⟩ := rightIntact.type?_eq_some_iff.mp isType'
      obtain rfl := leftIntact.standard type (leftIntact.definedTypes_eq ▸ mem) _ isStandard
      obtain rfl := rightIntact.standard type' (rightIntact.definedTypes_eq ▸ mem') _
        (sameName ▸ isStandard)
      exact .refl type'
  | none =>
      have ordinary := isStandardType_eq_false_iff.mpr isStandard
      have mem := leftIntact.mem_userTypes isType ordinary
      obtain ⟨other, otherMem, both⟩ := exists_of_mem_forall₂ resembles.types.flip mem
      have isOther := rightIntact.type?_of_userType otherMem
      have sameName : type.name = other.name := both.name
      rw [← sameName, (leftIntact.type?_eq_some_iff.mp isType).2, isType'] at isOther
      exact Option.some.inj isOther ▸ both

/-- Resembling schemas write the same under all names that both of them have. -/
theorem writesUnder : WritesUnder (KnowBoth left right) left right := by
  have sameFields : ∀ name, KnowBoth left right name →
      left.kind? name = right.kind? name ∧
        SameInputFields (left.inputFields name) (right.inputFields name) := by
    rintro name ⟨inLeft, inRight⟩
    obtain ⟨type, isType⟩ := Option.isSome_iff_exists.mp inLeft
    obtain ⟨type', isType'⟩ := Option.isSome_iff_exists.mp inRight
    have both := resembles.types_resemble leftIntact rightIntact isType isType'
    rw [kind?, kind?, inputFields_eq, inputFields_eq, isType, isType']
    exact ⟨congrArg some both.kind, both.inputFields⟩
  refine ⟨fun name isKnown => (sameFields name isKnown).1,
    fun name isKnown => (sameFields name isKnown).2, fun name isKnown field mem => ?_⟩
  obtain ⟨field', mem', -, sameType⟩ :=
    exists_of_mem_forall₂ (sameFields name isKnown).2.flip mem
  refine ⟨leftIntact.isSome_type?_of_isOwnInput (leftIntact.isOwnInput_of_inputFields mem), ?_⟩
  rw [sameType]
  exact rightIntact.isSome_type?_of_isOwnInput (rightIntact.isOwnInput_of_inputFields mem')

/-- Resembling schemas are written as the same text. -/
theorem print_sameResult : SameResult left.print right.print := by
  have under := resembles.writesUnder leftIntact rightIntact
  refine print_sameResult_of_parts resembles.schema ?_ ?_
  · refine (forall₂_mem resembles.directives).imp ?_
    rintro directive directive' ⟨⟨mem, mem'⟩, both⟩
    rw [← writeDirective_spoken, ← right.writeDirective_spoken]
    refine under.writeDirective_sameResult (fun input inLeft => ?_) both
    obtain ⟨other, inRight, sameType⟩ := exists_of_mem_agreeing both.arguments inLeft
    exact ⟨leftIntact.isSome_of_spokenArguments mem inLeft,
      sameType ▸ rightIntact.isSome_of_spokenArguments mem' inRight⟩
  · rw [leftIntact.writtenEntries_eq, rightIntact.writtenEntries_eq, List.forall₂_map_left_iff,
      List.forall₂_map_right_iff]
    refine (forall₂_mem resembles.types).imp ?_
    rintro type type' ⟨⟨mem, mem'⟩, both⟩
    refine SameResult.mapError ?_ PrintFault.default
    rw [← writeType_spoken, ← right.writeType_spoken]
    refine under.writeType_sameResult (fun input inLeft => ?_) both
    obtain ⟨other, inRight, sameType⟩ := Body.Agrees.exists_of_mem_inputs both.body inLeft
    exact ⟨leftIntact.isSome_of_spoken mem inLeft,
      sameType ▸ rightIntact.isSome_of_spoken mem' inRight⟩

end Intact

end Resembles

end SchemaOrder.Schema
