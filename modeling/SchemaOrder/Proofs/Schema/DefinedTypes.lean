import SchemaOrder.Proofs.Schema.DocumentReferences

/-!
# What a document makes of its definitions

Every type that a schema has from a document, save the standard ones, is what one definition and
its extensions make, part by part: `Definitions.Makes` says which parts these are, and
`ofDocument_eq_ok` takes a schema apart into them. Of several parts with one name the last one
counts, so that collections are related to the definitions put together by name.
-/

namespace SchemaOrder.Schema

open Outcome

/-- A draft that becomes a schema lists known types, and the schema has these and standard ones. -/
theorem Draft.assemble_eq_ok {ε : Type} {draft : Draft ε} {schema : Schema}
    (assembled : draft.assemble = .ok schema) :
    ∃ listed types, draft.types = listed.map .ofType ∧ Recollects listed types ∧
      schema = draft.withTypes types := by
  obtain ⟨listed, known⟩ := types_of_assemble assembled
  obtain ⟨types, collected, recollects⟩ := draft.collect_recollects known
  have becomes := assemble_of_collect collected
  exact ⟨listed, types, known, recollects, Except.ok.inj (assembled.symm.trans becomes)⟩

/-- A type that is no standard one was listed. -/
theorem Draft.Recollects.mem_listed {listed types : List NamedType}
    (recollects : Recollects listed types) {type : NamedType} (mem : type ∈ types)
    (ordinary : Standard.type? type.name = none) : type ∈ listed := by
  rw [← recollects.kept, List.mem_filter, decide_eq_true_eq]
  refine ⟨mem, ?_⟩
  by_contra unlisted
  rw [Standard.type?_name (recollects.standard type mem unlisted)] at ordinary
  cases ordinary

namespace Definitions

variable {definitions : Definitions} {definition : Document.TypeDefinition}

/-- The fields of an object or an interface that a definition and its extensions hold. -/
def fieldDefinitions (definitions : Definitions) (definition : Document.TypeDefinition) :
    List Document.FieldDefinition :=
  (definitions.nodes definition).flatMap fun node =>
    match node.body with
    | .object _ fields | .interface _ fields => fields
    | _ => []

/-- The input fields that a definition and its extensions hold. -/
def inputDefinitions (definitions : Definitions) (definition : Document.TypeDefinition) :
    List Document.InputValueDefinition :=
  (definitions.nodes definition).flatMap fun node =>
    match node.body with
    | .inputObject fields => fields
    | _ => []

/-- The interfaces that a definition and its extensions name. -/
def interfaceNames (definitions : Definitions) (definition : Document.TypeDefinition) :
    List Text :=
  (definitions.nodes definition).flatMap fun node =>
    match node.body with
    | .object names _ | .interface names _ => names
    | _ => []

/-- The members of a union that a definition and its extensions name. -/
def memberNames (definitions : Definitions) (definition : Document.TypeDefinition) : List Text :=
  (definitions.nodes definition).flatMap fun node =>
    match node.body with
    | .union names => names
    | _ => []

/-- The values of an enum that a definition and its extensions hold. -/
def valueDefinitions (definitions : Definitions) (definition : Document.TypeDefinition) :
    List Document.EnumValueDefinition :=
  (definitions.nodes definition).flatMap fun node =>
    match node.body with
    | .enum values => values
    | _ => []

/-- Input values are made of their definitions one by one, the last one of each name. -/
theorem forall₂_of_arguments {defined : List Document.InputValueDefinition}
    {arguments : List InputValue} (given : definitions.arguments defined = .ok arguments) :
    List.Forall₂ (fun definition value =>
        definitions.inputValue definitions.inputTypes .argument definition = .ok value)
      (Named.ofList Document.InputValueDefinition.name defined) arguments := by
  obtain ⟨made, each, rest⟩ := bind_eq_ok_iff.mp given
  cases rest
  refine Named.forall₂_ofList (fun definition value made => ?_) (forall₂_of_mapM each)
  obtain ⟨_, _, _, -, -, -, -, rfl⟩ := inputValue_eq_ok made
  rfl

/-- Input fields are made of their definitions one by one, the last one of each name. -/
theorem forall₂_of_definedInputFields {types : InputTypes SchemaFault}
    {fields : List InputValue}
    (given : definitions.definedInputFields types definition = .ok fields) :
    List.Forall₂ (fun definition value =>
        definitions.inputValue types .inputField definition = .ok value)
      (Named.ofList Document.InputValueDefinition.name (definitions.inputDefinitions definition))
      fields := by
  obtain ⟨parts, each, rest⟩ := bind_eq_ok_iff.mp given
  cases rest
  refine Named.forall₂_ofList (fun definition value made => ?_) (forall₂_flatten_of_mapM ?_)
  · obtain ⟨_, _, _, -, -, -, -, rfl⟩ := inputValue_eq_ok made
    rfl
  · rw [← each]
    refine congrArg (List.mapM · _) (funext fun node => ?_)
    cases node.body <;> rfl

/-- Fields are made of their definitions one by one, the last one of each name. -/
theorem forall₂_of_fields {fields : List Field}
    (given : definitions.fields definition = .ok fields) :
    List.Forall₂ (fun definition field => definitions.field definition = .ok field)
      (Named.ofList Document.FieldDefinition.name (definitions.fieldDefinitions definition))
      fields := by
  obtain ⟨parts, each, rest⟩ := bind_eq_ok_iff.mp (mapError_eq_ok_iff.mp given)
  cases rest
  refine Named.forall₂_ofList (fun definition field made => ?_) (forall₂_flatten_of_mapM ?_)
  · obtain ⟨_, _, _, -, -, -, -, rfl⟩ := field_eq_ok made
    rfl
  · rw [← each]
    refine congrArg (List.mapM · _) (funext fun node => ?_)
    cases node.body <;> rfl

/-- The names that are looked up one by one are the names that are given. -/
theorem map_fst_of_kinds {names : Document.TypeDefinition → List Text}
    {nodes : List Document.TypeDefinition} {kinds : List (List (Text × TypeKind))}
    (given : nodes.mapM (fun node => (names node).mapM fun name => do
      return (name, ← definitions.kindOf name)) = .ok kinds) :
    kinds.flatten.map Prod.fst = nodes.flatMap names := by
  have all := forall₂_flatten_of_mapM given
  refine (List.forall₂_eq_eq_eq ▸ List.forall₂_map_left_iff.mpr ?_ : _ = _)
  refine all.flip.imp fun entry name looked => ?_
  obtain ⟨kind, -, rest⟩ := bind_eq_ok_iff.mp looked
  cases rest
  rfl

/-- The interfaces of a type are those that its definition and its extensions name. -/
theorem interfaces_eq {names : List Text} (given : definitions.interfaces definition = .ok names) :
    names = definitions.interfaceNames definition := by
  simp only [interfaces, bind_eq_ok_iff, within, mapError_eq_ok_iff] at given
  obtain ⟨_, ⟨kinds, each, rest⟩, given⟩ := given
  cases rest
  split at given
  · cases given
    refine @map_fst_of_kinds definitions _ _ kinds ?_
    rw [← each]
    refine congrArg (List.mapM · _) (funext fun node => ?_)
    cases node.body <;> rfl
  · cases given

/-- The members of a union are those that its definition and its extensions name. -/
theorem members_eq {names : List Text} (given : definitions.members definition = .ok names) :
    names = definitions.memberNames definition := by
  simp only [members, bind_eq_ok_iff, within, mapError_eq_ok_iff] at given
  obtain ⟨_, ⟨kinds, each, rest⟩, given⟩ := given
  cases rest
  split at given
  · cases given
    refine @map_fst_of_kinds definitions _ _ kinds ?_
    rw [← each]
    refine congrArg (List.mapM · _) (funext fun node => ?_)
    cases node.body <;> rfl
  · cases given

/-- A value of an enum as defined. -/
def enumValue (definitions : Definitions) (definition : Document.EnumValueDefinition) :
    Except SchemaFault EnumValue := do
  return ⟨definition.name, definition.description,
    ← definitions.deprecation definition.directives⟩

/-- The values of an enum are made of their definitions one by one, the last one of each name. -/
theorem forall₂_of_enumValues {values : List EnumValue}
    (given : definitions.enumValues definition = .ok values) :
    List.Forall₂ (fun definition value => definitions.enumValue definition = .ok value)
      (Named.ofList Document.EnumValueDefinition.name (definitions.valueDefinitions definition))
      values := by
  obtain ⟨parts, each, rest⟩ := bind_eq_ok_iff.mp given
  cases rest
  refine Named.forall₂_ofList (fun definition value made => ?_)
    (forall₂_flatten_of_mapM (mapM_eq_ok_of_imp (fun node result made => ?_) each))
  · obtain ⟨deprecation, -, rest⟩ := bind_eq_ok_iff.mp made
    cases rest
    rfl
  · cases isBody : node.body with
    | enum values =>
        simp only [isBody] at made ⊢
        exact made
    | scalar | object | interface | union | inputObject =>
        simp only [isBody] at made
        cases made

/-- The body that a definition and its extensions make of a type. -/
inductive Makes (definitions : Definitions) (definition : Document.TypeDefinition) : Body → Prop
    where
  | scalar (specifiedBy : Option Text) (isScalar : definition.body = .scalar)
      (said : definitions.appliedText Standard.specifiedByDirective "url" definition.directives =
        .ok specifiedBy) :
      Makes definitions definition (.scalar specifiedBy)
  | object {names : List Text} {defined : List Document.FieldDefinition} {fields : List Field}
      (isObject : definition.body = .object names defined)
      (made : List.Forall₂ (fun definition field => definitions.field definition = .ok field)
        (Named.ofList Document.FieldDefinition.name (definitions.fieldDefinitions definition))
        fields) :
      Makes definitions definition (.object (definitions.interfaceNames definition) fields)
  | interface {names : List Text} {defined : List Document.FieldDefinition} {fields : List Field}
      (isInterface : definition.body = .interface names defined)
      (made : List.Forall₂ (fun definition field => definitions.field definition = .ok field)
        (Named.ofList Document.FieldDefinition.name (definitions.fieldDefinitions definition))
        fields) :
      Makes definitions definition (.interface (definitions.interfaceNames definition) fields)
  | union {names : List Text} (isUnion : definition.body = .union names) :
      Makes definitions definition (.union (definitions.memberNames definition))
  | enum {defined : List Document.EnumValueDefinition} {values : List EnumValue}
      (isEnum : definition.body = .enum defined)
      (made : List.Forall₂ (fun definition value => definitions.enumValue definition = .ok value)
        (Named.ofList Document.EnumValueDefinition.name
          (definitions.valueDefinitions definition)) values) :
      Makes definitions definition (.enum values)
  | inputObject {defined : List Document.InputValueDefinition} {fields : List InputValue}
      (isOneOf : Bool) (isInputObject : definition.body = .inputObject defined)
      (made : List.Forall₂ (fun definition value =>
          definitions.inputValue definitions.inputTypes .inputField definition = .ok value)
        (Named.ofList Document.InputValueDefinition.name
          (definitions.inputDefinitions definition)) fields)
      (said : definitions.isOneOf definition = .ok isOneOf) :
      Makes definitions definition (.inputObject fields (.boolean isOneOf))

/-- A type that a definition is resolved to is what the definition makes, unless it is a standard
one. -/
theorem makes_of_typeDraft {type : NamedType}
    (given : definitions.typeDraft definition = .ok (.ofType type))
    (ordinary : Standard.type? definition.name = none) :
    type.name = definition.name ∧ definitions.Makes definition type.body := by
  rw [typeDraft_of_not_standard ordinary] at given
  obtain ⟨body, isBody, rest⟩ := bind_eq_ok_iff.mp given
  obtain ⟨⟨⟩, -, same⟩ := bind_eq_ok_iff.mp rest
  obtain ⟨name, description, resolved⟩ := type
  simp only [pure_eq_ok_iff, TypeDraft.ofType, TypeDraft.mk.injEq] at same
  obtain ⟨rfl, rfl, rfl⟩ := same
  refine ⟨rfl, ?_⟩
  unfold draftBody at isBody
  split at isBody
  · next isScalar =>
      obtain ⟨specifiedBy, said, same⟩ := bind_eq_ok_iff.mp isBody
      cases resolved with
      | scalar =>
          cases same
          exact .scalar _ isScalar said
      | _ => cases same
  · next names defined isObject =>
      cases resolved with
      | object interfaces fields =>
          injection isBody with same
          injection same with isInterfaces isFields
          rw [interfaces_eq isInterfaces]
          exact .object isObject (forall₂_of_fields isFields)
      | _ => cases isBody
  · next names defined isInterface =>
      cases resolved with
      | interface interfaces fields =>
          injection isBody with same
          injection same with isInterfaces isFields
          rw [interfaces_eq isInterfaces]
          exact .interface isInterface (forall₂_of_fields isFields)
      | _ => cases isBody
  · next names isUnion =>
      cases resolved with
      | union members =>
          injection isBody with same
          injection same with isMembers
          rw [members_eq isMembers]
          exact .union isUnion
      | _ => cases isBody
  · next defined isEnum =>
      obtain ⟨values, isValues, same⟩ := bind_eq_ok_iff.mp isBody
      cases resolved with
      | enum =>
          cases same
          exact .enum isEnum (forall₂_of_enumValues isValues)
      | _ => cases same
  · next defined isInputObject =>
      obtain ⟨isOneOf, said, same⟩ := bind_eq_ok_iff.mp isBody
      cases resolved with
      | inputObject fields oneOf =>
          injection same with same
          injection same with isFields isFlag
          subst isFlag
          exact .inputObject isOneOf isInputObject
            (forall₂_of_definedInputFields (mapError_eq_ok_iff.mp isFields)) said
      | _ => cases same

/-- A type that a definition is resolved to has its description, unless it is a standard one. -/
theorem description_of_typeDraft {type : NamedType}
    (given : definitions.typeDraft definition = .ok (.ofType type))
    (ordinary : Standard.type? definition.name = none) :
    type.description = definition.description := by
  rw [typeDraft_of_not_standard ordinary] at given
  obtain ⟨body, -, rest⟩ := bind_eq_ok_iff.mp given
  obtain ⟨⟨⟩, -, same⟩ := bind_eq_ok_iff.mp rest
  simp only [pure_eq_ok_iff, TypeDraft.ofType, TypeDraft.mk.injEq] at same
  exact same.2.1.symm

end Definitions

/-- A schema that a document defines has, besides standard types and directives, what the
definitions of the document make. -/
theorem ofDocument_eq_ok {source : Text} {document : List Document.Definition} {isTrusted : Bool}
    {schema : Schema} (defined : ofDocument source document isTrusted = .ok schema)
    {parts : DocumentParts} (areParts : DocumentParts.ofDefinitions document = parts)
    {definitions : Definitions} (areDefinitions : definitions =
      ⟨source, Named.ofList Document.TypeDefinition.name parts.types, parts.typeExtensions⟩) :
    ∃ listed directives,
      List.Forall₂ (fun definition type => definitions.typeDraft definition = .ok (.ofType type))
        definitions.types listed ∧
      Draft.Recollects listed schema.types ∧
      List.Forall₂ (fun definition directive =>
        definitions.directive definition = .ok directive) parts.directives directives ∧
      schema.directives = directives ++ missingDirectives directives ∧
      schema.description = parts.schemas.getLast?.bind Document.SchemaDefinition.description ∧
      schema.query = parts.root .query "Query" ∧
      schema.mutation = parts.root .mutation "Mutation" ∧
      schema.subscription = parts.root .subscription "Subscription" := by
  subst areParts
  obtain ⟨drafts, drafted, rest⟩ := bind_eq_ok_iff.mp defined
  obtain ⟨⟨⟩, -, rest⟩ := bind_eq_ok_iff.mp rest
  obtain ⟨directives, directed, assembled⟩ := bind_eq_ok_iff.mp rest
  rw [← areDefinitions] at drafted directed
  obtain ⟨listed, types, isListed, recollects, rfl⟩ := Draft.assemble_eq_ok assembled
  refine ⟨listed, directives, ?_, recollects, forall₂_of_mapM directed, rfl, rfl, rfl, rfl, rfl⟩
  have all : List.Forall₂ (fun definition draft => definitions.typeDraft definition = .ok draft)
      (Named.ofList Document.TypeDefinition.name
        (DocumentParts.ofDefinitions document).types) (Named.ofList TypeDraft.name drafts) := by
    refine Named.forall₂_ofList (fun definition draft given => ?_) (forall₂_of_mapM drafted)
    exact (Definitions.name_of_typeDraft given).symm
  change Named.ofList TypeDraft.name drafts = listed.map .ofType at isListed
  rw [isListed, List.forall₂_map_right_iff] at all
  rw [areDefinitions] at all ⊢
  exact all

end SchemaOrder.Schema
