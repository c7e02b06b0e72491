import SchemaOrder.Proofs.Document.Inspections
import SchemaOrder.Proofs.Schema.CoercedDefaults
import SchemaOrder.Proofs.Schema.DocumentReferences

/-!
# Faults that can be foreseen

Whatever is wrong with a document without breaches of the rules, the fault is one that can be
foreseen. This is shown along the functions that read a document. A fault in a part of a type is
reported as such, and can be foreseen for that reason alone; this is why endless defaults need no
argument of their own.
-/

namespace SchemaOrder

open Outcome (FailsWithin)
open Outcome
open Schema

/-- A fault that can be foreseen. -/
def SchemaFault.IsForeseen (fault : SchemaFault) : Prop :=
  fault.kind.isForeseen = true

/-- A fault in a part of a type can be foreseen, whatever it is. -/
theorem SchemaFault.isForeseen_unresolved (owner : Text) (part : TypePart) (fault : SchemaFault) :
    (SchemaFault.unresolved owner part fault).IsForeseen := by
  unfold IsForeseen kind
  split <;> rfl

/-- A text that is no name is refused as such. -/
theorem checkName_failsWithin (name : Text) :
    FailsWithin SchemaFault.IsForeseen (checkName name) := by
  unfold checkName
  split
  · exact .error rfl
  · split
    · exact .error rfl
    · split
      · exact .error rfl
      · exact .ok _

/-- So is a text that is no name of an enum value. -/
theorem checkEnumValueName_failsWithin (name : Text) :
    FailsWithin SchemaFault.IsForeseen (checkEnumValueName name) := by
  refine (checkName_failsWithin name).bind fun _ => ?_
  dsimp only
  split
  · exact .error rfl
  · exact .ok _

section Coercion

variable {ε : Type} {allowed : ε → Prop}

/-- Types whose fields are worked out or fail in ways that are allowed. -/
structure InputTypes.FailWithin (allowed : ε → Prop) (types : InputTypes ε) : Prop where
  notInput : ∀ name, allowed (types.notInput name)
  fields : ∀ name fields isOneOf, types.shape name = .inputObject fields isOneOf →
    FailsWithin allowed fields

namespace Coercion

open InputTypes.Suit

variable {types : InputTypes ε}

/-- A literal is no value of a type where the type is none of inputs. -/
theorem leafValue_failsWithin (fail : types.FailWithin allowed) (name : Text)
    (literal : Document.Literal) : FailsWithin allowed (leafValue types name literal) := by
  unfold leafValue
  split
  · exact .ok _
  · split <;> exact .ok _
  · exact .ok _
  · exact .error (fail.notInput name)

/-- An object is coerced field by field. -/
theorem objectFields_failsWithin {written : List (WrittenField ε)}
    (each : ∀ given ∈ written, ∀ type, FailsWithin allowed (given.coerce type))
    (known : List InputValue) : FailsWithin allowed (objectFields written known) := by
  induction known with
  | nil => exact .ok _
  | cons field rest inductionHypothesis =>
      have own : FailsWithin allowed (ownField written field) := by
        unfold ownField
        dsimp only
        split
        · next given found =>
            have isLast := (Option.filter_eq_some_iff.mp found).1
            exact (each given (by simpa using List.mem_of_find?_eq_some isLast) _).map _
        · split <;> exact .ok _
      rw [objectFields_cons]
      refine own.bind fun own => ?_
      cases own with
      | none => exact .ok _
      | some value? => exact inductionHypothesis.map _

/-- Items are coerced one by one. -/
theorem coerceItems_failsWithin {items : List Document.Literal}
    (each : ∀ item ∈ items, ∀ type, FailsWithin allowed (coerce types item type))
    (type : TypeReference) : FailsWithin allowed (coerceItems types items type) := by
  induction items with
  | nil => exact .ok _
  | cons item rest inductionHypothesis =>
      obtain ⟨atHead, inTail⟩ := List.forall_mem_cons.mp each
      have first : FailsWithin allowed (coerceItem types item type) := by
        unfold coerceItem
        split
        · exact .ok _
        · exact atHead type
      rw [coerceItems_cons]
      refine first.bind fun value? => ?_
      cases value? with
      | none => exact .ok _
      | some value => exact (inductionHypothesis inTail).map _

mutual

/-- Coercing a value fails only in the ways that working out the fields of its types does. -/
theorem coerce_failsWithin (fail : types.FailWithin allowed) :
    ∀ literal type, FailsWithin allowed (coerce types literal type)
  | .variable _, _ | .null, _ => .ok _
  | .list items, type => by
      rw [coerce]
      split
      · exact (coerceItems_failsWithin (items_failWithin fail items) _).map _
      · exact leafValue_failsWithin fail _ _
  | .object fields, type => by
      rw [coerce]
      split
      · next known isOneOf isShape =>
          refine (fail.fields _ known isOneOf isShape).bind fun known => ?_
          exact (objectFields_failsWithin (fields_failWithin fail fields) known).bind fun _ => .ok _
      · exact (leafValue_failsWithin fail _ _).map _
  | .integer _, _ | .float _, _ | .text .., _ | .boolean _, _ | .enumValue _, _ =>
    (leafValue_failsWithin fail _ _).map _

/-- Neither does coercing the items of a list fail in other ways. -/
theorem items_failWithin (fail : types.FailWithin allowed) : ∀ items : List Document.Literal,
    ∀ item ∈ items, ∀ type, FailsWithin allowed (coerce types item type)
  | [] => List.forall_mem_nil _
  | item :: rest =>
    List.forall_mem_cons.mpr ⟨coerce_failsWithin fail item, items_failWithin fail rest⟩

/-- Nor does coercing the fields that an object is written with. -/
theorem fields_failWithin (fail : types.FailWithin allowed) :
    ∀ fields : List (Text × Document.Literal), ∀ given ∈ writtenFields types fields,
      ∀ type, FailsWithin allowed (given.coerce type)
  | [] => List.forall_mem_nil _
  | (_, literal) :: rest =>
    List.forall_mem_cons.mpr ⟨coerce_failsWithin fail literal, fields_failWithin fail rest⟩

end

end Coercion

end Coercion

namespace Schema

section Assembly

variable {ε : Type} {allowed : ε → Prop}

/-- Parts of a type that are worked out or fail in ways that are allowed. -/
def DraftBody.FailWithin (allowed : ε → Prop) : DraftBody ε → Prop
  | .scalar _ | .enum _ => True
  | .object interfaces fields | .interface interfaces fields =>
    FailsWithin allowed interfaces ∧ FailsWithin allowed fields
  | .union members => FailsWithin allowed members
  | .inputObject fields _ => FailsWithin allowed fields

namespace TypeDraft

variable {draft : TypeDraft ε}

/-- Nothing of a type that is known has to be worked out. -/
theorem failWithin_ofType (type : NamedType) :
    (ofType type : TypeDraft ε).body.FailWithin allowed := by
  obtain ⟨name, description, body⟩ := type
  cases body with
  | scalar | enum => exact trivial
  | object | interface => exact ⟨.ok _, .ok _⟩
  | union | inputObject => exact FailsWithin.ok _

/-- A draft is resolved, or one of its parts fails. -/
theorem resolve_failsWithin (fail : draft.body.FailWithin allowed) :
    FailsWithin allowed draft.resolve := by
  obtain ⟨name, description, body⟩ := draft
  unfold resolve
  cases body with
  | scalar | enum => exact .ok _
  | object interfaces fields | interface interfaces fields =>
      exact fail.1.bind fun _ => fail.2.bind fun _ => .ok _
  | union members => exact FailsWithin.bind fail fun _ => .ok _
  | inputObject fields oneOf => exact FailsWithin.bind fail fun _ => .ok _

/-- What a draft leads to fails only where one of its parts does. -/
theorem stages_failWithin (fail : draft.body.FailWithin allowed) :
    ∀ stage ∈ draft.stages, FailsWithin allowed stage := by
  obtain ⟨name, description, body⟩ := draft
  cases body with
  | scalar | enum => exact List.forall_mem_nil _
  | object interfaces fields | interface interfaces fields =>
      exact List.forall_mem_cons.mpr ⟨fail.1, List.forall_mem_singleton.mpr (fail.2.map _)⟩
  | union members => exact List.forall_mem_singleton.mpr fail
  | inputObject fields oneOf => exact List.forall_mem_singleton.mpr (FailsWithin.map fail _)

end TypeDraft

namespace Draft

variable {draft : Draft ε}

/-- A draft is assembled or fails only in the ways that working out the parts of its types does. -/
theorem assemble_failsWithin (fail : ∀ type ∈ draft.types, type.body.FailWithin allowed) :
    FailsWithin allowed draft.assemble := by
  have found : ∀ name next, draft.find? name = some next → next.body.FailWithin allowed := by
    intro name next isFound
    unfold find? at isFound
    split at isFound
    · next isListed =>
        cases isFound
        exact fail next (List.mem_of_find?_eq_some isListed)
    · obtain ⟨type, -, rfl⟩ := Option.map_eq_some_iff.mp isFound
      exact TypeDraft.failWithin_ofType type
  have collects : FailsWithin allowed draft.collect :=
    Web.collect_failsWithin found (fun _ => TypeDraft.stages_failWithin) _ fail _
  refine collects.bindResult fun types collected => ?_
  refine FailsWithin.bind (FailsWithin.mapM_of_mem fun type mem => ?_) fun _ => .ok _
  exact TypeDraft.resolve_failsWithin (Web.forall_of_collect found fail collected type mem)

end Draft

end Assembly

open SchemaFault (IsForeseen isForeseen_unresolved)

namespace Definitions

variable (definitions : Definitions)

/-- A fault within a part of a type can be foreseen. -/
theorem within_failsWithin {α : Type} (owner : Text) (part : TypePart)
    (result : Except SchemaFault α) : FailsWithin IsForeseen (within owner part result) :=
  .mapError fun fault => isForeseen_unresolved owner part fault

/-- A name that is defined nowhere can be foreseen. -/
theorem kindOf_failsWithin (name : Text) : FailsWithin IsForeseen (definitions.kindOf name) := by
  unfold kindOf
  split
  · exact .ok _
  · split
    · exact .ok _
    · exact .error rfl

/-- The types of standard directives are scalars, which have no fields to work out. -/
theorem standardInputTypes_failWithin : standardInputTypes.FailWithin IsForeseen where
  notInput _ := rfl
  fields := by
    rintro _ _ _ ⟨⟩

/-- What is given for an argument of a standard directive fits or is refused. -/
theorem argumentValue_failsWithin (argument : InputValue) (directive : Document.Directive) :
    FailsWithin IsForeseen (definitions.argumentValue argument directive) := by
  unfold argumentValue
  dsimp only
  split
  · split
    · exact .ok _
    · split
      · exact .error rfl
      · exact .ok _
  · split
    · exact .error rfl
    · refine (Coercion.coerce_failsWithin standardInputTypes_failWithin _ _).bind fun value? => ?_
      split
      · exact .ok _
      · exact .error rfl

/-- So are all arguments of a standard directive. -/
theorem appliedArguments_failsWithin (standard : Directive)
    (directives : List Document.Directive) :
    FailsWithin IsForeseen (definitions.appliedArguments standard directives) := by
  unfold appliedArguments
  split
  · exact .ok _
  · exact (FailsWithin.mapM (fun argument => (definitions.argumentValue_failsWithin argument _).bind
      fun _ => .ok _) _).bind fun _ => .ok _

/-- So is the text that an argument of one is. -/
theorem appliedText_failsWithin (standard : Directive) (argument : Text)
    (directives : List Document.Directive) :
    FailsWithin IsForeseen (definitions.appliedText standard argument directives) := by
  refine (definitions.appliedArguments_failsWithin standard directives).bind fun values? => ?_
  split
  · exact .ok _
  · split <;> exact .ok _

/-- A type in a place that is not for it can be foreseen. -/
theorem checkPlace_failsWithin (admitted : Bool) (place : TypePlace) :
    FailsWithin IsForeseen (checkPlace admitted place) := by
  unfold checkPlace
  split
  · exact .ok _
  · exact .error rfl

/-- An argument is made, or its type or its default is refused. -/
theorem inputValue_failsWithin {types : InputTypes SchemaFault} (fail : types.FailWithin IsForeseen)
    (place : TypePlace) (definition : Document.InputValueDefinition) :
    FailsWithin IsForeseen (definitions.inputValue types place definition) := by
  refine (definitions.kindOf_failsWithin _).bind fun kind => ?_
  have rest (default? : Option Value) := (definitions.appliedText_failsWithin
    Standard.deprecatedDirective "reason" definition.directives).bind fun deprecation =>
      (checkPlace_failsWithin kind.isInput place).bind fun _ => .ok
        (⟨definition.name, definition.type, default?, definition.description, deprecation⟩ :
          InputValue)
  dsimp only
  split
  · exact rest none
  · exact (Coercion.coerce_failsWithin fail _ _).bind rest

/-- The fields of an input object are a part of it, so that their faults can be foreseen. -/
theorem inputTypes_failWithin : definitions.inputTypes.FailWithin IsForeseen where
  notInput _ := rfl
  fields := by
    intro name fields isOneOf isShape
    have shape : inputShape (definitions.types.length + 1) definitions name =
        .inputObject fields isOneOf := isShape
    unfold inputShape at shape
    split at shape
    · split at shape <;> cases shape
    · split at shape
      · cases shape
      · split at shape <;> cases shape
        exact within_failsWithin _ _ _

/-- Arguments are made, or one of them is refused. -/
theorem arguments_failsWithin (defined : List Document.InputValueDefinition) :
    FailsWithin IsForeseen (definitions.arguments defined) :=
  (FailsWithin.mapM (definitions.inputValue_failsWithin definitions.inputTypes_failWithin _)
    defined).bind fun _ => .ok _

/-- A type that is no interface can be foreseen. -/
theorem interfaces_failsWithin (definition : Document.TypeDefinition) :
    FailsWithin IsForeseen (definitions.interfaces definition) := by
  refine (within_failsWithin _ _ _).bind fun kinds => ?_
  split
  · exact .ok _
  · exact .error rfl

/-- So can a type that is no object. -/
theorem members_failsWithin (definition : Document.TypeDefinition) :
    FailsWithin IsForeseen (definitions.members definition) := by
  refine (within_failsWithin _ _ _).bind fun kinds => ?_
  split
  · exact .ok _
  · exact .error rfl

/-- So can an extension of another kind. -/
theorem checkExtensions_failsWithin (definition : Document.TypeDefinition) :
    FailsWithin IsForeseen (definitions.checkExtensions definition) := by
  unfold checkExtensions
  dsimp only
  split
  · exact .ok _
  · exact .error rfl

/-- Whether the extensions of a type are of its kind. -/
def ExtendsOwnKind (definition : Document.TypeDefinition) : Prop :=
  ∀ extension ∈ definitions.extensions, extension.name = definition.name →
    extension.body.kind = definition.body.kind

/-- An enum whose extensions are enums has values. -/
theorem enumValues_failsWithin {definition : Document.TypeDefinition}
    (own : definitions.ExtendsOwnKind definition) (isEnum : definition.body.kind = .enum) :
    FailsWithin IsForeseen (definitions.enumValues definition) := by
  refine FailsWithin.bind (FailsWithin.mapM_of_mem fun node mem => ?_) fun _ => .ok _
  have kind : node.body.kind = .enum := by
    rcases List.mem_cons.mp mem with rfl | mem
    · exact isEnum
    · obtain ⟨isExtension, sameName⟩ := List.mem_filter.mp mem
      exact (own node isExtension (by simpa using sameName)).trans isEnum
  split
  · exact FailsWithin.mapM (fun value : Document.EnumValueDefinition =>
      (definitions.appliedText_failsWithin _ _ value.directives).bind fun _ => .ok _) _
  · next notEnum =>
      cases body : node.body with
      | «enum» values => exact absurd body (notEnum values)
      | _ =>
          rw [body] at kind
          cases kind

/-- The faults in the parts of a type can be foreseen. -/
theorem failWithin_of_draftBody {definition : Document.TypeDefinition}
    {body : DraftBody SchemaFault} (given : definitions.draftBody definition = .ok body) :
    body.FailWithin IsForeseen := by
  unfold draftBody at given
  split at given
  · obtain ⟨address, -, same⟩ := bind_eq_ok_iff.mp given
    cases same
    exact trivial
  · cases given
    exact ⟨definitions.interfaces_failsWithin definition, within_failsWithin _ _ _⟩
  · cases given
    exact ⟨definitions.interfaces_failsWithin definition, within_failsWithin _ _ _⟩
  · cases given
    exact definitions.members_failsWithin definition
  · obtain ⟨values, -, same⟩ := bind_eq_ok_iff.mp given
    cases same
    exact trivial
  · obtain ⟨isOneOf, -, same⟩ := bind_eq_ok_iff.mp given
    cases same
    exact within_failsWithin _ _ _

/-- A type whose extensions are of its kind makes a draft, or the fault can be foreseen. -/
theorem typeDraft_failsWithin {definition : Document.TypeDefinition}
    (own : definitions.ExtendsOwnKind definition) :
    FailsWithin IsForeseen (definitions.typeDraft definition) := by
  cases isStandard : Standard.type? definition.name with
  | some type =>
      rw [typeDraft_of_standard isStandard]
      exact .ok _
  | none =>
      rw [typeDraft_of_not_standard isStandard]
      have body : FailsWithin IsForeseen (definitions.draftBody definition) := by
        unfold draftBody
        split
        · exact (definitions.appliedText_failsWithin _ _ _).bind fun _ => .ok _
        · exact .ok _
        · exact .ok _
        · exact .ok _
        · next isEnum =>
            have kind : definition.body.kind = .enum := by rw [isEnum]; rfl
            exact (definitions.enumValues_failsWithin own kind).bind fun _ => .ok _
        · exact ((definitions.appliedArguments_failsWithin _ _).bind fun _ => .ok _).bind
            fun _ => .ok _
      exact body.bind fun _ => (definitions.checkExtensions_failsWithin _).bind fun _ => .ok _

/-- The faults in the parts of a draft can be foreseen. -/
theorem failWithin_of_typeDraft {definition : Document.TypeDefinition}
    {draft : TypeDraft SchemaFault} (given : definitions.typeDraft definition = .ok draft) :
    draft.body.FailWithin IsForeseen := by
  rcases typeDraft_eq_ok given with ⟨type, -, rfl⟩ | ⟨-, body, isBody, -, rfl⟩
  · exact TypeDraft.failWithin_ofType type
  · exact definitions.failWithin_of_draftBody isBody

/-- A directive is made, or one of its arguments is refused. -/
theorem directive_failsWithin (definition : Document.DirectiveDefinition) :
    FailsWithin IsForeseen (definitions.directive definition) :=
  (definitions.arguments_failsWithin _).bind fun _ => .ok _

end Definitions

namespace DocumentParts

variable {document : List Document.Definition} {type : Document.TypeDefinition}

/-- The types of a document are among its definitions. -/
theorem mem_of_mem_types (mem : type ∈ (ofDefinitions document).types) : .type type ∈ document := by
  obtain ⟨part, partMem, isType⟩ := List.mem_filterMap.mp mem
  split at isType
  · cases isType
    exact partMem
  · cases isType

/-- So are the extensions of types. -/
theorem mem_of_mem_typeExtensions (mem : type ∈ (ofDefinitions document).typeExtensions) :
    .typeExtension type ∈ document := by
  obtain ⟨part, partMem, isExtension⟩ := List.mem_filterMap.mp mem
  split at isExtension
  · cases isExtension
    exact partMem
  · cases isExtension

end DocumentParts

/-- A document without breaches of the rules defines a schema, or the fault can be foreseen. -/
theorem ofDocument_failsWithin {source : Text} {document : List Document.Definition}
    {isTrusted : Bool} (clean : Document.breaches document = []) :
    FailsWithin IsForeseen (ofDocument source document isTrusted) := by
  unfold ofDocument
  dsimp only
  generalize isDefinitions : (⟨source, _, _⟩ : Definitions) = definitions
  have own : ∀ definition ∈ (DocumentParts.ofDefinitions document).types,
      definitions.ExtendsOwnKind definition := by
    intro definition mem extension isExtension sameName
    rw [← isDefinitions] at isExtension
    exact Document.kind_eq_of_breaches clean (DocumentParts.mem_of_mem_types mem)
      (DocumentParts.mem_of_mem_typeExtensions isExtension) sameName
  refine FailsWithin.bindResult (FailsWithin.mapM_of_mem fun definition mem =>
    definitions.typeDraft_failsWithin (own definition mem)) fun drafts drafted => ?_
  refine FailsWithin.bind (.forM (fun operation => ?_) _) fun _ => ?_
  · exact (definitions.kindOf_failsWithin operation.2).bind fun _ => .ok _
  refine (FailsWithin.mapM definitions.directive_failsWithin _).bind fun directives => ?_
  refine Draft.assemble_failsWithin fun draft mem => ?_
  obtain ⟨definition, -, given⟩ := exists_of_mem_mapM drafted (Named.mem_of_mem_ofList mem)
  exact definitions.failWithin_of_typeDraft given

end Schema

end SchemaOrder
