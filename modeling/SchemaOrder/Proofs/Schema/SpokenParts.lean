import SchemaOrder.Proofs.Document.DefinitionParts
import SchemaOrder.Proofs.Schema.Writing

/-!
# Parts as they are written

A document does not tell everything that a schema holds. Where no argument of a list has a
description with something in it, none of these descriptions is written, and of what a schema says
about taking exactly one field only the truth of it is. This module leaves out of a part what is
not written: the spoken part is written like the part itself, and parts that agree agree when they
are spoken.
-/

namespace SchemaOrder.Schema

open Outcome

/-- Arguments with the descriptions that are written. -/
def spokenArguments (arguments : List InputValue) : List InputValue :=
  arguments.map fun argument =>
    { argument with description := spokenDescription arguments argument }

/-- A field with what is written of it. -/
def Field.spoken (field : Field) : Field :=
  { field with arguments := spokenArguments field.arguments }

/-- A body with what is written of it. -/
def Body.spoken : Body → Body
  | .scalar specifiedBy => .scalar specifiedBy
  | .object interfaces fields => .object interfaces (fields.map Field.spoken)
  | .interface interfaces fields => .interface interfaces (fields.map Field.spoken)
  | .union members => .union members
  | .enum values => .enum values
  | .inputObject fields oneOf => .inputObject fields (.boolean !oneOf.isFalsy)

/-- A type with what is written of it. -/
def NamedType.spoken (type : NamedType) : NamedType :=
  { type with body := type.body.spoken }

/-- A directive with what is written of it. -/
def Directive.spoken (directive : Directive) : Directive :=
  { directive with arguments := spokenArguments directive.arguments }

/-- A field keeps its name. -/
@[simp] theorem Field.name_spoken (field : Field) : field.spoken.name = field.name :=
  rfl

/-- A type keeps its name. -/
@[simp] theorem NamedType.name_spoken (type : NamedType) : type.spoken.name = type.name :=
  rfl

/-- A directive keeps its name. -/
@[simp] theorem Directive.name_spoken (directive : Directive) :
    directive.spoken.name = directive.name :=
  rfl

/-- Whether no argument has a description with something in it. -/
def areUndescribed (arguments : List InputValue) : Bool :=
  arguments.all fun argument => (argument.description.getD []).isEmpty

/-- Arguments without anything in their descriptions are written without descriptions. -/
theorem spokenArguments_of_undescribed {arguments : List InputValue}
    (undescribed : areUndescribed arguments = true) :
    spokenArguments arguments = arguments.map fun argument =>
      { argument with description := none } := by
  unfold spokenArguments spokenDescription
  unfold areUndescribed at undescribed
  simp only [undescribed, if_true]

/-- Other arguments are written with their descriptions. -/
theorem spokenArguments_of_described {arguments : List InputValue}
    (described : areUndescribed arguments = false) : spokenArguments arguments = arguments := by
  unfold spokenArguments spokenDescription
  unfold areUndescribed at described
  simp only [described, Bool.false_eq_true, if_false]
  exact List.map_id _

/-- Leaving out what is not written leaves out no description with something in it. -/
theorem areUndescribed_spokenArguments (arguments : List InputValue) :
    areUndescribed (spokenArguments arguments) = areUndescribed arguments := by
  cases described : areUndescribed arguments with
  | false => rw [spokenArguments_of_described described, described]
  | true =>
      rw [spokenArguments_of_undescribed described]
      simp [areUndescribed]

/-- Nothing more is left out the second time. -/
@[simp] theorem spokenArguments_spokenArguments (arguments : List InputValue) :
    spokenArguments (spokenArguments arguments) = spokenArguments arguments := by
  cases described : areUndescribed arguments with
  | false => rw [spokenArguments_of_described described, spokenArguments_of_described described]
  | true =>
      rw [spokenArguments_of_undescribed (areUndescribed_spokenArguments arguments ▸ described),
        spokenArguments_of_undescribed described, List.map_map]
      rfl

/-- Nor is more left out of a field. -/
@[simp] theorem Field.spoken_spoken (field : Field) : field.spoken.spoken = field.spoken := by
  simp [Field.spoken]

/-- Nor of what a type holds. -/
@[simp] theorem Body.spoken_spoken (body : Body) : body.spoken.spoken = body.spoken := by
  cases body <;> simp [Body.spoken, Json.isFalsy, Function.comp_def]

/-- Nor of a type. -/
@[simp] theorem NamedType.spoken_spoken (type : NamedType) :
    type.spoken.spoken = type.spoken := by
  simp [NamedType.spoken]

/-- Nor of a directive. -/
@[simp] theorem Directive.spoken_spoken (directive : Directive) :
    directive.spoken.spoken = directive.spoken := by
  simp [Directive.spoken]

section Writing

variable (schema : Schema)

/-- Arguments are written as what is written of them. -/
theorem writeArguments_spoken (indentation : Text) (arguments : List InputValue) :
    schema.writeArguments indentation (spokenArguments arguments) =
      schema.writeArguments indentation arguments := by
  cases described : areUndescribed arguments with
  | false => rw [spokenArguments_of_described described]
  | true =>
      have still := areUndescribed_spokenArguments arguments ▸ described
      unfold areUndescribed at still described
      unfold writeArguments
      rw [still, described, spokenArguments_of_undescribed described, List.isEmpty_map,
        List.mapM_map]
      rfl

/-- A field is written as what is written of it. -/
theorem writeField_spoken (isFirst : Bool) (field : Field) :
    schema.writeField isFirst field.spoken = schema.writeField isFirst field := by
  unfold writeField
  rw [Field.spoken, writeArguments_spoken]

/-- Parts that are written like others are so between braces, too. -/
theorem writeParts_map {α : Type} {write : Bool → α → Except DefaultFault Text} {change : α → α}
    (same : ∀ isFirst part, write isFirst (change part) = write isFirst part) (parts : List α) :
    writeParts write (parts.map change) = writeParts write parts := by
  unfold writeParts
  rw [List.zipIdx_map, List.mapM_map]
  simp only [Function.comp_def, Prod.map, same]
  rfl

/-- A type is written as what is written of it. -/
theorem writeType_spoken (type : NamedType) :
    schema.writeType type.spoken = schema.writeType type := by
  obtain ⟨name, description, body⟩ := type
  unfold writeType writeBody
  cases body with
  | scalar | union | enum => rfl
  | object interfaces fields | interface interfaces fields =>
      simp only [NamedType.spoken, Body.spoken, writeParts_map (writeField_spoken schema)]
  | inputObject fields oneOf =>
      simp only [NamedType.spoken, Body.spoken]
      cases oneOf.isFalsy <;> rfl

/-- A directive is written as what is written of it. -/
theorem writeDirective_spoken (directive : Directive) :
    schema.writeDirective directive.spoken = schema.writeDirective directive := by
  unfold writeDirective
  rw [Directive.spoken, writeArguments_spoken]

end Writing

section Agreement

/-- Arguments that agree agree in what is written of them. -/
theorem agrees_spokenArguments {lefts rights : List InputValue}
    (related : Arrangement.inOrder.Relates (InputValue.Agrees .mirrored) lefts rights) :
    Arrangement.inOrder.Relates (InputValue.Agrees .mirrored) (spokenArguments lefts)
      (spokenArguments rights) := by
  have sameTest : areUndescribed lefts = areUndescribed rights :=
    related.all_eq _ fun _ _ agree => by rw [agree.description]
  cases described : areUndescribed lefts with
  | false =>
      rwa [spokenArguments_of_described described,
        spokenArguments_of_described (sameTest ▸ described)]
  | true =>
      rw [spokenArguments_of_undescribed described,
        spokenArguments_of_undescribed (sameTest ▸ described), Arrangement.Relates,
        List.forall₂_map_left_iff, List.forall₂_map_right_iff]
      exact related.imp fun _ _ agree =>
        ⟨agree.name, agree.type, agree.default, rfl, agree.deprecation⟩

/-- Fields that agree agree in what is written of them. -/
theorem Field.Agrees.spoken {left right : Field} (agree : left.Agrees .mirrored right) :
    left.spoken.Agrees .mirrored right.spoken :=
  ⟨agree.name, agree.type, agrees_spokenArguments agree.arguments, agree.description,
    agree.deprecation⟩

/-- Bodies that agree agree in what is written of them. -/
theorem Body.Agrees.spoken {left right : Body} (agree : left.Agrees .mirrored right) :
    left.spoken.Agrees .mirrored right.spoken := by
  have sameFields : ∀ {fields fields' : List Field},
      Arrangement.inOrder.Relates (Field.Agrees .mirrored) fields fields' →
      Arrangement.inOrder.Relates (Field.Agrees .mirrored) (fields.map Field.spoken)
        (fields'.map Field.spoken) := by
    intro fields fields' related
    rw [Arrangement.Relates, List.forall₂_map_left_iff, List.forall₂_map_right_iff]
    exact related.imp fun _ _ agree => agree.spoken
  cases agree with
  | scalar specifiedBy => exact .scalar specifiedBy
  | object sameInterfaces related => exact .object sameInterfaces (sameFields related)
  | interface sameInterfaces related => exact .interface sameInterfaces (sameFields related)
  | union sameMembers => exact .union sameMembers
  | enum sameValues => exact .enum sameValues
  | inputObject related oneOf => exact .inputObject related _

/-- Types that agree agree in what is written of them. -/
theorem NamedType.Agrees.spoken {left right : NamedType} (agree : left.Agrees .mirrored right) :
    left.spoken.Agrees .mirrored right.spoken :=
  ⟨agree.name, agree.description, agree.body.spoken, fun isIntrospection =>
    congrArg Body.spoken (agree.introspection isIntrospection)⟩

/-- Directives that agree agree in what is written of them. -/
theorem Directive.Agrees.spoken {left right : Directive} (agree : left.Agrees .mirrored right) :
    left.spoken.Agrees .mirrored right.spoken :=
  ⟨agree.name, agree.description, agrees_spokenArguments agree.arguments, agree.isRepeatable,
    agree.locations, agree.deprecation⟩

end Agreement

end SchemaOrder.Schema
