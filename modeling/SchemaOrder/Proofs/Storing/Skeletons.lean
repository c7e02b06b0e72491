import SchemaOrder.Proofs.Sorting.CheckAgreement
import SchemaOrder.Proofs.Sorting.Untampered

/-!
# Skeletons

The skeleton of a schema is what holds its types together: the names, the kinds, the references
and the order of everything, without descriptions, defaults and deprecations. It is what survives
when a schema is stored and read again, and the layout that the check looks at is part of it.
-/

namespace SchemaOrder.Schema

/-- An argument or an input field: its name and its type. -/
structure InputSkeleton where
  name : Text
  type : TypeReference
deriving DecidableEq, Repr

/-- A field: its name, its type and its arguments. -/
structure FieldSkeleton where
  name : Text
  type : TypeReference
  arguments : List InputSkeleton
deriving DecidableEq, Repr

/-- What makes a type, by kind. -/
inductive BodySkeleton where
  | scalar
  | object (interfaces : List Text) (fields : List FieldSkeleton)
  | interface (interfaces : List Text) (fields : List FieldSkeleton)
  | union (members : List Text)
  | enum (values : List Text)
  | inputObject (fields : List InputSkeleton)
deriving DecidableEq, Repr

/-- A type: its name and what makes it. -/
structure TypeSkeleton where
  name : Text
  body : BodySkeleton
deriving DecidableEq, Repr

/-- A directive: its name, its arguments and where it may stand. -/
structure DirectiveSkeleton where
  name : Text
  arguments : List InputSkeleton
  isRepeatable : Bool
  locations : List Text
deriving DecidableEq, Repr

/-- The skeleton of an argument or an input field. -/
def InputValue.skeleton (input : InputValue) : InputSkeleton :=
  ⟨input.name, input.type⟩

/-- The skeleton of a field. -/
def Field.skeleton (field : Field) : FieldSkeleton :=
  ⟨field.name, field.type, field.arguments.map InputValue.skeleton⟩

/-- The skeleton of a body. -/
def Body.skeleton : Body → BodySkeleton
  | .scalar _ => .scalar
  | .object interfaces fields => .object interfaces (fields.map Field.skeleton)
  | .interface interfaces fields => .interface interfaces (fields.map Field.skeleton)
  | .union members => .union members
  | .enum values => .enum (values.map EnumValue.name)
  | .inputObject fields _ => .inputObject (fields.map InputValue.skeleton)

/-- The skeleton of a type. -/
def NamedType.skeleton (type : NamedType) : TypeSkeleton :=
  ⟨type.name, type.body.skeleton⟩

/-- The skeleton of a directive. -/
def Directive.skeleton (directive : Directive) : DirectiveSkeleton :=
  ⟨directive.name, directive.arguments.map InputValue.skeleton, directive.isRepeatable,
    directive.locations⟩

/-- The skeletons of the types and the directives that a user of a schema has named, in their
order. -/
def userSkeletons (schema : Schema) : List TypeSkeleton × List DirectiveSkeleton :=
  (schema.userTypes.map NamedType.skeleton, schema.userDirectives.map Directive.skeleton)

/-- The names that the skeleton of a field leads to. -/
def FieldSkeleton.references (field : FieldSkeleton) : List Text :=
  field.type.base :: field.arguments.map fun argument => argument.type.base

/-- The names that the skeleton of a body leads to. -/
def BodySkeleton.references : BodySkeleton → List Text
  | .object interfaces fields | .interface interfaces fields =>
    interfaces ++ fields.flatMap FieldSkeleton.references
  | .union members => members
  | .inputObject fields => fields.map fun field => field.type.base
  | .scalar | .enum _ => []

/-- A body leads to the names that its skeleton leads to. -/
theorem Body.references_eq (body : Body) : body.references = body.skeleton.references := by
  have ofFields : ∀ fields : List Field, TypeDraft.fieldReferences fields =
      (fields.map Field.skeleton).flatMap FieldSkeleton.references := by
    intro fields
    rw [TypeDraft.fieldReferences, List.flatMap_map]
    refine List.flatMap_congr fun field _ => ?_
    rw [FieldSkeleton.references, Field.skeleton, List.map_map]
    rfl
  cases body with
  | scalar | union | enum => rfl
  | object interfaces fields | interface interfaces fields =>
      exact congrArg (interfaces ++ ·) (ofFields fields)
  | inputObject fields =>
      simp [Body.references, Body.skeleton, BodySkeleton.references, InputValue.skeleton]

/-- Types of one skeleton lead to the same names. -/
theorem NamedType.references_eq_of_skeleton {left right : NamedType}
    (same : left.skeleton = right.skeleton) : left.references = right.references := by
  rw [NamedType.references, NamedType.references, Body.references_eq, Body.references_eq]
  exact congrArg (fun skeleton => skeleton.body.references) same

/-- The types that a user of a schema has named are those that a document writes. -/
theorem Intact.userTypes_eq {schema : Schema} (intact : schema.Intact) :
    (schema.index.filter fun entry => !isStandardType entry.name).filterMap Entry.type? =
      schema.userTypes := by
  have sameTest : ∀ type : NamedType, (!isStandardType type.name) =
      (!isIntrospectionType type.name && !isStandardScalar type.name) := by
    intro type
    rw [isStandardType, Bool.not_or, Bool.and_comm]
  rw [userTypes, intact.definedTypes_eq, intact.index, List.filter_map, List.filterMap_map]
  have isType : Entry.type? ∘ Entry.defined = some := rfl
  rw [isType, List.filterMap_some]
  exact List.filter_congr fun type _ => sameTest type

/-- A type that a user of a schema has named is none of the standard types. -/
theorem ordinary_of_userType {schema : Schema} {type : NamedType} (mem : type ∈ schema.userTypes) :
    isStandardType type.name = false := by
  have isUser := (List.mem_filter.mp mem).2
  rw [Bool.and_eq_true, Bool.not_eq_true', Bool.not_eq_true'] at isUser
  rw [isStandardType, isUser.1, isUser.2]
  rfl

end SchemaOrder.Schema
