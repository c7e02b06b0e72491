import SchemaOrder.Schema.Draft
import SchemaOrder.Schema.Link

/-!
# Constructing schemas of type objects

This module holds how a schema is constructed of type objects that others are linked to.
All objects that can be reached are collected, as drafts are, but an object is known by its
owner and its name, and not by its name alone: a link that leads to a stray object brings
that object into the schema, with all that it leads to. A schema in which two objects would
have one name is refused. Where schemas are read, every name is looked up in one place, so
that drafts by name do for them.
-/

namespace SchemaOrder.Schema

/-- What makes a type object, links still to be worked out. -/
inductive ObjectBody (ε : Type) where
  | scalar (specifiedBy : Option Text)
  | object (interfaces : Except ε (List Target)) (fields : Except ε (List LinkedField))
  | interface (interfaces : Except ε (List Target)) (fields : Except ε (List LinkedField))
  | union (members : Except ε (List Target))
  | enum (values : List EnumValue)
  | inputObject (fields : Except ε (List LinkedInput)) (oneOf : Json)

/-- A type object whose links are still to be worked out. -/
structure TypeObject (ε : Type) where
  target : Target
  description : Option Text
  body : ObjectBody ε

namespace TypeObject

variable {ε : Type}

/-- The name of a type object. -/
def name (object : TypeObject ε) : Text :=
  object.target.name

/-- The object of a known type, where names lead to certain objects. -/
def ofType (leads : Text → Target) (target : Target) (type : NamedType) : TypeObject ε :=
  ⟨target, type.description,
    match type.body with
    | .scalar specifiedBy => .scalar specifiedBy
    | .object interfaces fields =>
      .object (.ok (interfaces.map leads)) (.ok (fields.map (Field.linked leads)))
    | .interface interfaces fields =>
      .interface (.ok (interfaces.map leads)) (.ok (fields.map (Field.linked leads)))
    | .union members => .union (.ok (members.map leads))
    | .enum values => .enum values
    | .inputObject fields oneOf => .inputObject (.ok (fields.map (InputValue.linked leads))) oneOf⟩

/-- An object of the library, which leads to others of the library. -/
def ofLibrary (type : NamedType) : TypeObject ε :=
  .ofType .inLibrary (.inLibrary type.name) type

/-- An object of a schema that is to be sorted, which leads to others of that schema. -/
def ofOriginal (type : NamedType) : TypeObject ε :=
  .ofType .inOriginal ⟨.original, type.name⟩ type

/-- The draft that an object is with references by name. -/
def unlinked (object : TypeObject ε) : TypeDraft ε :=
  ⟨object.name, object.description,
    match object.body with
    | .scalar specifiedBy => .scalar specifiedBy
    | .object interfaces fields =>
      .object (interfaces.map (List.map Target.name)) (fields.map (List.map LinkedField.unlinked))
    | .interface interfaces fields =>
      .interface (interfaces.map (List.map Target.name))
        (fields.map (List.map LinkedField.unlinked))
    | .union members => .union (members.map (List.map Target.name))
    | .enum values => .enum values
    | .inputObject fields oneOf => .inputObject (fields.map (List.map LinkedInput.unlinked)) oneOf⟩

/-- What an object leads to, in the stages in which its links are worked out. -/
def stages (object : TypeObject ε) : List (Except ε (List Target)) :=
  match object.body with
  | .scalar _ => []
  | .object interfaces fields => [interfaces, fields.map fieldTargets]
  | .interface interfaces fields => [interfaces, fields.map fieldTargets]
  | .union members => [members]
  | .enum _ => []
  | .inputObject fields _ => [fields.map inputTargets]

end TypeObject

/-- A schema that is to be constructed of type objects. -/
structure ObjectDraft (ε : Type) where
  description : Option Text
  query : Option Target
  mutation : Option Target
  subscription : Option Target
  directives : List LinkedDirective
  objects : List (TypeObject ε)
  /-- The types of the schema that is sorted, which stray links lead to. -/
  originals : List NamedType
  /-- Whether the schema is taken to be valid. -/
  isTrusted : Bool

namespace ObjectDraft

variable {ε : Type}

/-- The object that a link leads to: one of the draft, or one of the library's or of the
original's. -/
def find? (draft : ObjectDraft ε) (target : Target) : Option (TypeObject ε) :=
  match draft.objects.find? fun object => object.target = target with
  | some object => some object
  | none =>
    match target.owner with
    | .library => (Standard.type? target.name).map .ofLibrary
    | .original => (Named.find? NamedType.name target.name draft.originals).map .ofOriginal
    | .sorter => none

/-- What the schema itself leads to: its operations, the arguments of its directives, and
the type that describes it. -/
def targets (draft : ObjectDraft ε) : List Target :=
  [draft.query, draft.mutation, draft.subscription].filterMap id ++
    draft.directives.flatMap (fun directive => inputTargets directive.arguments) ++
    [.inLibrary "__Schema"]

/-- The web of the objects that can be reached from a draft. -/
def web (draft : ObjectDraft ε) : Web ε Target (TypeObject ε) :=
  ⟨TypeObject.target, TypeObject.stages, draft.find?⟩

/-- The objects of a draft and all that they lead to, in their order. -/
def collect (draft : ObjectDraft ε) : Except ε (List (TypeObject ε)) :=
  draft.web.collect
    (draft.objects.length + Standard.types.length + draft.originals.length + 1)
    draft.objects draft.targets

/-- The schema that is constructed of the objects of a draft. A name that two of them have
is refused with a fault. -/
def construct (repeated : Text → ε) (draft : ObjectDraft ε) : Except ε Schema := do
  let objects ← draft.collect
  match Named.repeated? (objects.map TypeObject.name) with
  | some name => throw (repeated name)
  | none =>
    let types ← objects.mapM fun object => object.unlinked.resolve
    pure {
      description := draft.description
      query := draft.query.map Target.name
      mutation := draft.mutation.map Target.name
      subscription := draft.subscription.map Target.name
      directives := draft.directives.map LinkedDirective.unlinked
      types
      index := types.map .defined
      validation := if draft.isTrusted then some [] else none }

end ObjectDraft

end SchemaOrder.Schema
