import SchemaOrder.Proofs.Parallel
import SchemaOrder.Proofs.Schema.Agreement
import SchemaOrder.Proofs.Schema.CoercedDefaults
import SchemaOrder.Schema.Draft

/-!
# Drafts whose faults are related

Coercing a value and assembling a draft look at what a part of a type is, never at why it cannot be
worked out. Two drafts whose parts are parallel are therefore assembled in parallel: the schemas are
the same, and otherwise the first faults on the way are related.
-/

namespace SchemaOrder

open Outcome (Parallel)
open Schema

section Coercion

variable {ε : Type}

/-- Two shapes of a type whose fields are parallel. -/
inductive InputShape.Alike (faults : ε → ε → Prop) : InputShape ε → InputShape ε → Prop where
  | scalar : Alike faults .scalar .scalar
  | enum (values : List Text) : Alike faults (.enum values) (.enum values)
  | inputObject {fields fields' : Except ε (List InputValue)}
      (parallel : Parallel faults Eq fields fields') {isOneOf isOneOf' : Bool}
      (sameFlag : isOneOf = isOneOf') :
      Alike faults (.inputObject fields isOneOf) (.inputObject fields' isOneOf')
  | output : Alike faults .output .output

/-- Types whose fields are parallel, and of which the same cannot be written. -/
structure InputTypes.Alike (faults : ε → ε → Prop) (left right : InputTypes ε) : Prop where
  shape : ∀ name, (left.shape name).Alike faults (right.shape name)
  notInput : ∀ name, faults (left.notInput name) (right.notInput name)

namespace Coercion

open InputTypes.Suit

variable {faults : ε → ε → Prop} {left right : InputTypes ε}

/-- A literal for a scalar or an enum is coerced alike. -/
theorem leafValue_parallel (alike : left.Alike faults right) (name : Text)
    (literal : Document.Literal) :
    Parallel faults Eq (leafValue left name literal) (leafValue right name literal) := by
  have shapes := alike.shape name
  unfold leafValue
  generalize left.shape name = shape, right.shape name = shape' at shapes ⊢
  cases shapes with
  | scalar => exact .ok rfl
  | enum values => cases literal <;> exact .ok rfl
  | inputObject => exact .ok rfl
  | output => exact .error (alike.notInput name)

/-- Fields that were written under one name and are coerced in parallel. -/
structure WrittenField.Alike (faults : ε → ε → Prop) (left right : WrittenField ε) : Prop where
  name : left.name = right.name
  isVariable : left.isVariable = right.isVariable
  coerce : ∀ type, Parallel faults Eq (left.coerce type) (right.coerce type)

/-- The fields of an object are coerced in parallel. -/
theorem objectFields_parallel {lefts rights : List (WrittenField ε)}
    (written : List.Forall₂ (WrittenField.Alike faults) lefts rights) (known : List InputValue) :
    Parallel faults Eq (objectFields lefts known) (objectFields rights known) := by
  induction known with
  | nil => exact .ok rfl
  | cons field rest inductionHypothesis =>
      have own : Parallel faults Eq (ownField lefts field) (ownField rights field) := by
        have last := Arrangement.Relates.find? (fun given => given.name = field.name)
          (List.forall₂_reverse_iff.mpr written) fun _ _ alike => by rw [alike.name]
        unfold ownField
        dsimp only
        generalize lefts.reverse.find? (fun given => given.name = field.name) = last?,
          rights.reverse.find? (fun given => given.name = field.name) = last?' at last ⊢
        cases last with
        | none => cases field.default? <;> exact .ok rfl
        | @some given given' alike =>
            have sameVariable := alike.isVariable
            cases isVariable : given'.isVariable <;> rw [isVariable] at sameVariable
            · simp only [Option.filter_some, sameVariable, isVariable]
              exact (alike.coerce field.type).mapSame _
            · simp only [Option.filter_some, sameVariable, isVariable]
              cases field.default? <;> exact .ok rfl
      rw [objectFields_cons, objectFields_cons]
      refine own.bindSame fun own => ?_
      cases own with
      | none => exact .ok rfl
      | some value? => exact inductionHypothesis.mapSame _

mutual

/-- Coercing a value goes the same way as far as the fields of types are worked out. -/
theorem coerce_parallel (alike : left.Alike faults right) : ∀ literal type,
    Parallel faults Eq (coerce left literal type) (coerce right literal type)
  | .variable _, _ | .null, _ => .ok rfl
  | .list items, type => by
      rw [coerce, coerce]
      split
      · exact (coerceItems_parallel alike items _).mapSame _
      · exact leafValue_parallel alike _ _
  | .object fields, type => by
      rw [coerce, coerce]
      have leaf := (leafValue_parallel alike type.base (.object fields)).mapSame
        fun value => value.map (wrap (listDepth type))
      have shapes := alike.shape type.base
      generalize left.shape type.base = shape, right.shape type.base = shape' at shapes ⊢
      cases shapes with
      | scalar => exact leaf
      | enum => exact leaf
      | output => exact leaf
      | inputObject parallel sameFlag =>
          subst sameFlag
          refine parallel.bindSame fun known => ?_
          exact (objectFields_parallel (writtenFields_alike alike fields) known).bindSame
            fun _ => .ok rfl
  | .integer _, _ | .float _, _ | .text .., _ | .boolean _, _ | .enumValue _, _ =>
    (leafValue_parallel alike _ _).mapSame _

/-- So are the items of a list: this is half of the induction on literals. -/
theorem coerceItems_parallel (alike : left.Alike faults right) : ∀ items type,
    Parallel faults Eq (coerceItems left items type) (coerceItems right items type)
  | [], _ => .ok rfl
  | item :: rest, type => by
      rw [coerceItems_cons, coerceItems_cons]
      have first : Parallel faults Eq (coerceItem left item type) (coerceItem right item type) := by
        unfold coerceItem
        split
        · exact .ok rfl
        · exact coerce_parallel alike item type
      refine first.bindSame fun value? => ?_
      cases value? with
      | none => exact .ok rfl
      | some value => exact (coerceItems_parallel alike rest type).mapSame _

/-- And so are the fields that are written in an object, which is the other half. -/
theorem writtenFields_alike (alike : left.Alike faults right) :
    ∀ fields : List (Text × Document.Literal),
      List.Forall₂ (WrittenField.Alike faults) (writtenFields left fields)
        (writtenFields right fields)
  | [] => .nil
  | (_, literal) :: rest =>
    .cons ⟨rfl, rfl, coerce_parallel alike literal⟩ (writtenFields_alike alike rest)

end

end Coercion

end Coercion

namespace Schema

variable {ε : Type}

/-- Two bodies of a type whose parts are parallel. -/
inductive DraftBody.Alike (faults : ε → ε → Prop) : DraftBody ε → DraftBody ε → Prop where
  | scalar (specifiedBy : Option Text) : Alike faults (.scalar specifiedBy) (.scalar specifiedBy)
  | object {interfaces interfaces' : Except ε (List Text)} {fields fields' : Except ε (List Field)}
      (ownInterfaces : Parallel faults Eq interfaces interfaces')
      (ownFields : Parallel faults Eq fields fields') :
      Alike faults (.object interfaces fields) (.object interfaces' fields')
  | interface {interfaces interfaces' : Except ε (List Text)}
      {fields fields' : Except ε (List Field)}
      (ownInterfaces : Parallel faults Eq interfaces interfaces')
      (ownFields : Parallel faults Eq fields fields') :
      Alike faults (.interface interfaces fields) (.interface interfaces' fields')
  | union {members members' : Except ε (List Text)}
      (parallel : Parallel faults Eq members members') :
      Alike faults (.union members) (.union members')
  | enum (values : List EnumValue) : Alike faults (.enum values) (.enum values)
  | inputObject {fields fields' : Except ε (List InputValue)}
      (parallel : Parallel faults Eq fields fields') (oneOf : Json) :
      Alike faults (.inputObject fields oneOf) (.inputObject fields' oneOf)

/-- Two drafts of a type whose parts are parallel. -/
structure TypeDraft.Alike (faults : ε → ε → Prop) (left right : TypeDraft ε) : Prop where
  name : left.name = right.name
  description : left.description = right.description
  body : left.body.Alike faults right.body

variable {faults : ε → ε → Prop}

namespace TypeDraft

variable {left right : TypeDraft ε}

/-- Nothing of a known type has to be worked out. -/
theorem alike_ofType (type : NamedType) :
    (ofType type : TypeDraft ε).Alike faults (ofType type : TypeDraft ε) where
  name := rfl
  description := rfl
  body := by
    obtain ⟨name, description, body⟩ := type
    cases body with
    | scalar => exact .scalar _
    | object => exact .object (.ok rfl) (.ok rfl)
    | interface => exact .interface (.ok rfl) (.ok rfl)
    | union => exact .union (.ok rfl)
    | enum => exact .enum _
    | inputObject => exact .inputObject (.ok rfl) _

/-- The parts of a type are worked out in parallel. -/
theorem Alike.resolve (alike : left.Alike faults right) :
    Parallel faults Eq left.resolve right.resolve := by
  obtain ⟨name, description, body⟩ := left
  obtain ⟨name', description', body'⟩ := right
  obtain ⟨rfl, rfl, bodies⟩ := alike
  unfold TypeDraft.resolve
  cases bodies with
  | scalar => exact .ok rfl
  | enum => exact .ok rfl
  | object ownInterfaces ownFields =>
      exact ownInterfaces.bindSame fun _ => ownFields.bindSame fun _ => .ok rfl
  | interface ownInterfaces ownFields =>
      exact ownInterfaces.bindSame fun _ => ownFields.bindSame fun _ => .ok rfl
  | union parallel => exact parallel.bindSame fun _ => .ok rfl
  | inputObject parallel => exact parallel.bindSame fun _ => .ok rfl

/-- The stages in which the parts of a type are worked out are parallel. -/
theorem Alike.stages (alike : left.Alike faults right) :
    List.Forall₂ (Parallel faults Eq) left.stages right.stages := by
  obtain ⟨name, description, body⟩ := left
  obtain ⟨name', description', body'⟩ := right
  cases alike.body with
  | scalar => exact .nil
  | enum => exact .nil
  | object ownInterfaces ownFields =>
      exact .cons ownInterfaces (.cons (ownFields.mapSame _) .nil)
  | interface ownInterfaces ownFields =>
      exact .cons ownInterfaces (.cons (ownFields.mapSame _) .nil)
  | union parallel => exact .cons parallel .nil
  | inputObject parallel => exact .cons (parallel.mapSame _) .nil

end TypeDraft

namespace Collected

/-- Two states in which the same names are known and types with parallel parts are collected. -/
structure Alike (faults : ε → ε → Prop) (left right : Collected ε) : Prop where
  known : left.known = right.known
  collected : List.Forall₂ (TypeDraft.Alike faults) left.collected right.collected

variable {find find' : Text → Option (TypeDraft ε)} {left right : Collected ε}

/-- Collecting a type and what it leads to. -/
theorem visit_parallel
    (finds : ∀ name, Option.Rel (TypeDraft.Alike faults) (find name) (find' name)) (fuel : Nat)
    {draft draft' : TypeDraft ε} (drafts : draft.Alike faults draft')
    (states : left.Alike faults right) :
    Parallel faults (Alike faults) (visit fuel find draft left)
      (visit fuel find' draft' right) := by
  induction fuel generalizing draft draft' left right with
  | zero => exact .ok states
  | succ fuel inductionHypothesis =>
      have entered : Alike faults ⟨draft.name :: left.known, draft :: left.collected⟩
          ⟨draft'.name :: right.known, draft' :: right.collected⟩ :=
        ⟨by rw [drafts.name, states.known], .cons drafts states.collected⟩
      refine Parallel.foldlM drafts.stages (fun stage stage' parallel _ _ states => ?_) entered
      refine parallel.bindSame fun names => ?_
      refine Parallel.foldlM (List.forall₂_same.mpr fun _ _ => rfl) ?_ states
      rintro name _ rfl state state' states
      rw [states.known]
      split
      · exact .ok states
      · dsimp only [web]
        have found := finds name
        generalize find name = draft?, find' name = draft?' at found ⊢
        cases found with
        | none => exact .ok states
        | some drafts => exact inductionHypothesis drafts states

/-- Collecting the type that a name leads to. -/
theorem visitName_parallel
    (finds : ∀ name, Option.Rel (TypeDraft.Alike faults) (find name) (find' name)) (fuel : Nat)
    (name : Text) (states : left.Alike faults right) :
    Parallel faults (Alike faults) (visitName fuel find left name)
      (visitName fuel find' right name) := by
  unfold visitName Web.visitKey
  rw [states.known]
  split
  · exact .ok states
  · dsimp only [web]
    have found := finds name
    generalize find name = draft?, find' name = draft?' at found ⊢
    cases found with
    | none => exact .ok states
    | some drafts => exact visit_parallel finds fuel drafts states

end Collected

namespace Draft

/-- Two drafts that say the same of types with parallel parts. -/
structure Alike (faults : ε → ε → Prop) (left right : Draft ε) : Prop where
  description : left.description = right.description
  query : left.query = right.query
  mutation : left.mutation = right.mutation
  subscription : left.subscription = right.subscription
  directives : left.directives = right.directives
  types : List.Forall₂ (TypeDraft.Alike faults) left.types right.types
  isTrusted : left.isTrusted = right.isTrusted

namespace Alike

variable {left right : Draft ε} (alike : left.Alike faults right)
include alike

/-- A name leads to types that are alike, or to none on both sides. -/
theorem find? (name : Text) :
    Option.Rel (TypeDraft.Alike faults) (left.find? name) (right.find? name) := by
  have listed := Arrangement.Relates.find? (fun type : TypeDraft ε => type.name = name)
    alike.types fun _ _ types => by rw [types.name]
  unfold Draft.find?
  generalize left.types.find? (fun type => type.name = name) = found,
    right.types.find? (fun type => type.name = name) = found' at listed ⊢
  cases listed with
  | none =>
      cases Standard.type? name with
      | none => exact .none
      | some type => exact .some (TypeDraft.alike_ofType type)
  | some types => exact .some types

/-- Collecting goes the same way as far as the parts of types are worked out. -/
theorem collect :
    Parallel faults (List.Forall₂ (TypeDraft.Alike faults)) left.collect right.collect := by
  have names : left.types.map TypeDraft.name = right.types.map TypeDraft.name :=
    Arrangement.Relates.map_eq _ alike.types fun _ _ types => types.name
  have references : left.references = right.references := by
    unfold references
    rw [alike.query, alike.mutation, alike.subscription, alike.directives]
  unfold Draft.collect Web.collect
  rw [alike.types.length_eq, references]
  refine (Parallel.foldlM alike.types (fun _ _ types _ _ states =>
    Collected.visit_parallel alike.find? _ types states) ⟨names, .nil⟩).bind
      fun listed listed' states => ?_
  refine (Parallel.foldlM (List.forall₂_same.mpr fun _ _ => rfl) ?_ states).bind
    fun all all' states => .ok (List.forall₂_reverse_iff.mpr states.collected)
  rintro name _ rfl _ _ states
  exact Collected.visitName_parallel alike.find? _ name states

/-- Drafts that say the same are assembled in parallel. -/
theorem assemble : Parallel faults Eq left.assemble right.assemble := by
  refine alike.collect.bind fun drafts drafts' collected => ?_
  have each := collected.imp fun _ _ types => types.resolve
  refine (Parallel.mapM each).bind fun types types' same => ?_
  rw [List.forall₂_eq_eq_eq] at same
  rw [alike.description, alike.query, alike.mutation, alike.subscription, alike.directives,
    alike.isTrusted, same]
  exact .ok rfl

end Alike

end Draft

end Schema

end SchemaOrder
