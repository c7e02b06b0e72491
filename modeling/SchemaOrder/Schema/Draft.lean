import SchemaOrder.Schema.Standard
import SchemaOrder.Schema.Web

/-!
# Drafts of schemas

This module holds how a schema comes about. A draft lists types whose parts are still to
be worked out, which may fail. Assembling a draft collects every type that can be
reached from the listed ones, from the operations, from the directives and from
introspection; the parts of a type are worked out when the type is collected, so that
of several failures the first one on the way is reported. The collected types keep the
order of the list, and a type that is not listed comes right behind the first type that
leads to it.
-/

namespace SchemaOrder.Schema

/-- What makes a type, parts with references still to be worked out. -/
inductive DraftBody (ε : Type) where
  | scalar (specifiedBy : Option Text)
  | object (interfaces : Except ε (List Text)) (fields : Except ε (List Field))
  | interface (interfaces : Except ε (List Text)) (fields : Except ε (List Field))
  | union (members : Except ε (List Text))
  | enum (values : List EnumValue)
  | inputObject (fields : Except ε (List InputValue)) (oneOf : Json)

/-- The kind of type that a body makes. -/
def DraftBody.kind {ε : Type} : DraftBody ε → TypeKind
  | .scalar _ => .scalar
  | .object .. => .object
  | .interface .. => .interface
  | .union _ => .union
  | .enum _ => .enum
  | .inputObject .. => .inputObject

/-- A type whose parts are still to be worked out. -/
structure TypeDraft (ε : Type) where
  name : Text
  description : Option Text
  body : DraftBody ε

namespace TypeDraft

variable {ε : Type}

/-- The draft of a type that is known already. -/
def ofType (type : NamedType) : TypeDraft ε :=
  ⟨type.name, type.description,
    match type.body with
    | .scalar specifiedBy => .scalar specifiedBy
    | .object interfaces fields => .object (.ok interfaces) (.ok fields)
    | .interface interfaces fields => .interface (.ok interfaces) (.ok fields)
    | .union members => .union (.ok members)
    | .enum values => .enum values
    | .inputObject fields oneOf => .inputObject (.ok fields) oneOf⟩

/-- The type with its parts worked out. -/
def resolve (draft : TypeDraft ε) : Except ε NamedType := do
  let body : Body ←
    match draft.body with
    | .scalar specifiedBy => pure (.scalar specifiedBy)
    | .object interfaces fields => pure (.object (← interfaces) (← fields))
    | .interface interfaces fields => pure (.interface (← interfaces) (← fields))
    | .union members => pure (.union (← members))
    | .enum values => pure (.enum values)
    | .inputObject fields oneOf => pure (.inputObject (← fields) oneOf)
  pure ⟨draft.name, draft.description, body⟩

/-- The names a type's fields lead to: for every field its own type, then those of its
arguments. -/
def fieldReferences (fields : List Field) : List Text :=
  fields.flatMap fun field =>
    field.type.base :: field.arguments.map fun argument => argument.type.base

/-- The names a type leads to, in the stages in which its parts are worked out. -/
def stages (draft : TypeDraft ε) : List (Except ε (List Text)) :=
  match draft.body with
  | .scalar _ => []
  | .object interfaces fields => [interfaces, fields.map fieldReferences]
  | .interface interfaces fields => [interfaces, fields.map fieldReferences]
  | .union members => [members]
  | .enum _ => []
  | .inputObject fields _ => [fields.map fun fields => fields.map fun field => field.type.base]

end TypeDraft

/-- The types collected so far, under their names. -/
abbrev Collected (ε : Type) :=
  Gathered Text (TypeDraft ε)

namespace Collected

variable {ε : Type}

/-- The web of types, with a way to find them. -/
abbrev web (find : Text → Option (TypeDraft ε)) : Web ε Text (TypeDraft ε) :=
  ⟨TypeDraft.name, TypeDraft.stages, find⟩

/-- Collects a type and what it leads to. -/
def visit (fuel : Nat) (find : Text → Option (TypeDraft ε)) (draft : TypeDraft ε)
    (state : Collected ε) : Except ε (Collected ε) :=
  (web find).visit fuel draft state

/-- Collects the type with a name, if it is not among the known ones. -/
def visitName (fuel : Nat) (find : Text → Option (TypeDraft ε)) (state : Collected ε)
    (name : Text) : Except ε (Collected ε) :=
  (web find).visitKey fuel state name

end Collected

/-- A schema whose types are still to be worked out. -/
structure Draft (ε : Type) where
  description : Option Text
  query : Option Text
  mutation : Option Text
  subscription : Option Text
  directives : List Directive
  types : List (TypeDraft ε)
  /-- Whether the schema is taken to be valid. -/
  isTrusted : Bool

namespace Draft

variable {ε : Type}

/-- The type that a name leads to: one of the draft, or a standard one. -/
def find? (draft : Draft ε) (name : Text) : Option (TypeDraft ε) :=
  match draft.types.find? fun type => type.name = name with
  | some type => some type
  | none => (Standard.type? name).map TypeDraft.ofType

/-- The names that the schema itself leads to: its operations, the arguments of its
directives, and the type that describes it. -/
def references (draft : Draft ε) : List Text :=
  [draft.query, draft.mutation, draft.subscription].filterMap id ++
    draft.directives.flatMap (fun directive =>
      directive.arguments.map fun argument => argument.type.base) ++
    [Text.ofString "__Schema"]

/-- The types of a draft and all that they lead to, in their order. -/
def collect (draft : Draft ε) : Except ε (List (TypeDraft ε)) :=
  (Collected.web draft.find?).collect (draft.types.length + Standard.types.length + 1)
    draft.types draft.references

/-- The schema that a draft becomes. -/
def assemble (draft : Draft ε) : Except ε Schema := do
  let types ← (← draft.collect).mapM TypeDraft.resolve
  pure {
    description := draft.description
    query := draft.query
    mutation := draft.mutation
    subscription := draft.subscription
    directives := draft.directives
    types
    index := types.map .defined
    validation := if draft.isTrusted then some [] else none }

end Draft

end SchemaOrder.Schema
