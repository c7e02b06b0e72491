import SchemaOrder.Proofs.Schema.Saturation
import SchemaOrder.Schema.OfDocument

/-!
# References of documents

Every part of a document that names a type looks the name up first, so that a part which can be
worked out refers only to types that the document defines, or to standard ones.
`ofDocument_intact` concludes that whatever schema a document defines, trusted or not, is intact.
-/

namespace SchemaOrder.Schema

open Outcome

/-- Every argument of a standard directive is of a standard type. -/
theorem Standard.references_directives {directive : Directive}
    (mem : directive ∈ Standard.directives) {name : Text} (nameMem : name ∈ directive.references) :
    (Standard.type? name).isSome := by
  have all : ∀ directive ∈ Standard.directives, ∀ name ∈ directive.references,
      (Standard.type? name).isSome := by decide +kernel
  exact all directive mem name nameMem

namespace Definitions

variable {definitions : Definitions}

/-- A name under which a document has a type: one that it defines, or a standard one. -/
def Knows (definitions : Definitions) (name : Text) : Prop :=
  name ∈ definitions.types.map Document.TypeDefinition.name ∨ (Standard.type? name).isSome

/-- A name whose kind can be told is known. -/
theorem knows_of_kindOf {name : Text} {kind : TypeKind}
    (found : definitions.kindOf name = .ok kind) : definitions.Knows name := by
  unfold kindOf at found
  split at found
  · next standard => exact .inr (by simp [standard])
  · split at found
    · next definition isDefined => exact .inl (Named.isSome_find?_iff.mp (by simp [isDefined]))
    · cases found

/-- What an argument or an input field is, where it can be worked out. -/
theorem inputValue_eq_ok {types : InputTypes SchemaFault} {place : TypePlace}
    {definition : Document.InputValueDefinition} {value : InputValue}
    (given : definitions.inputValue types place definition = .ok value) :
    ∃ kind default? deprecation,
      definitions.kindOf definition.type.base = .ok kind ∧
      definition.default?.elim (.ok none)
        (fun literal => Coercion.coerce types literal definition.type) = .ok default? ∧
      definitions.deprecation definition.directives = .ok deprecation ∧
      checkPlace kind.isInput place = .ok () ∧
      value = ⟨definition.name, definition.type, default?, definition.description,
        deprecation⟩ := by
  obtain ⟨name, description, type, default?, directives⟩ := definition
  cases default? with
  | none | some literal =>
      simp only [inputValue, bind_eq_ok_iff, pure_eq_ok_iff] at given
      obtain ⟨kind, found, default?, coerced, deprecation, deprecated, ⟨⟩, admitted, rfl⟩ := given
      exact ⟨kind, default?, deprecation, found, by simpa using coerced, deprecated, admitted, rfl⟩

/-- What a field is, where it can be worked out. -/
theorem field_eq_ok {definition : Document.FieldDefinition} {field : Field}
    (given : definitions.field definition = .ok field) :
    ∃ kind arguments deprecation,
      definitions.kindOf definition.type.base = .ok kind ∧
      definitions.arguments definition.arguments = .ok arguments ∧
      definitions.deprecation definition.directives = .ok deprecation ∧
      checkPlace kind.isOutput .field = .ok () ∧
      field = ⟨definition.name, definition.type, arguments, definition.description,
        deprecation⟩ := by
  simp only [Definitions.field, bind_eq_ok_iff, pure_eq_ok_iff] at given
  obtain ⟨kind, found, arguments, given, deprecation, deprecated, ⟨⟩, admitted, rfl⟩ := given
  exact ⟨kind, arguments, deprecation, found, given, deprecated, admitted, rfl⟩

/-- An argument or an input field refers to a known type. -/
theorem knows_of_inputValue {types : InputTypes SchemaFault} {place : TypePlace}
    {definition : Document.InputValueDefinition} {value : InputValue}
    (given : definitions.inputValue types place definition = .ok value) :
    definitions.Knows value.type.base := by
  obtain ⟨kind, default?, deprecation, found, -, -, -, rfl⟩ := inputValue_eq_ok given
  exact knows_of_kindOf found

/-- Arguments refer to known types. -/
theorem knows_of_arguments {defined : List Document.InputValueDefinition}
    {arguments : List InputValue} (given : definitions.arguments defined = .ok arguments) :
    ∀ argument ∈ arguments, definitions.Knows argument.type.base := by
  obtain ⟨made, each, rest⟩ := bind_eq_ok_iff.mp given
  cases rest
  intro argument mem
  obtain ⟨definition, -, made⟩ := exists_of_mem_mapM each (Named.mem_of_mem_ofList mem)
  exact knows_of_inputValue made

/-- A field refers to known types. -/
theorem knows_of_field {definition : Document.FieldDefinition} {field : Field}
    (given : definitions.field definition = .ok field) :
    ∀ name ∈ TypeDraft.fieldReferences [field], definitions.Knows name := by
  obtain ⟨kind, arguments, deprecation, found, inArguments, -, -, rfl⟩ := field_eq_ok given
  intro name mem
  simp only [TypeDraft.fieldReferences, List.flatMap_singleton, List.mem_cons, List.mem_map] at mem
  rcases mem with rfl | ⟨argument, argumentMem, rfl⟩
  · exact knows_of_kindOf found
  · exact knows_of_arguments inArguments argument argumentMem

/-- The fields of an object or an interface refer to known types. -/
theorem knows_of_fields {definition : Document.TypeDefinition} {fields : List Field}
    (given : definitions.fields definition = .ok fields) :
    ∀ name ∈ TypeDraft.fieldReferences fields, definitions.Knows name := by
  obtain ⟨parts, each, rest⟩ := bind_eq_ok_iff.mp (mapError_eq_ok_iff.mp given)
  cases rest
  intro name mem
  obtain ⟨field, fieldMem, inField⟩ := List.mem_flatMap.mp mem
  have knows : ∀ field ∈ parts.flatten, ∀ name ∈ TypeDraft.fieldReferences [field],
      definitions.Knows name := by
    refine forall_mem_flatten_of_mapM (fun node fields made field fieldMem => ?_) each
    split at made
    · obtain ⟨definition, -, isField⟩ := exists_of_mem_mapM made fieldMem
      exact knows_of_field isField
    · obtain ⟨definition, -, isField⟩ := exists_of_mem_mapM made fieldMem
      exact knows_of_field isField
    · cases made
      cases fieldMem
  refine knows field (Named.mem_of_mem_ofList fieldMem) name ?_
  simpa [TypeDraft.fieldReferences] using inField

/-- Names whose kinds were asked for are known. -/
theorem knows_of_kinds {names : List Text} {kinds : List (Text × TypeKind)}
    (given : names.mapM (fun name => do return (name, ← definitions.kindOf name)) = .ok kinds) :
    ∀ entry ∈ kinds, definitions.Knows entry.1 := by
  intro entry entryMem
  obtain ⟨name, -, made⟩ := exists_of_mem_mapM given entryMem
  obtain ⟨kind, found, rest⟩ := bind_eq_ok_iff.mp made
  cases rest
  exact knows_of_kindOf found

/-- The interfaces that a type implements are known. -/
theorem knows_of_interfaces {definition : Document.TypeDefinition} {names : List Text}
    (given : definitions.interfaces definition = .ok names) :
    ∀ name ∈ names, definitions.Knows name := by
  obtain ⟨kinds, asked, checked⟩ := bind_eq_ok_iff.mp given
  obtain ⟨parts, each, rest⟩ := bind_eq_ok_iff.mp (mapError_eq_ok_iff.mp asked)
  cases rest
  have knows : ∀ entry ∈ parts.flatten, definitions.Knows entry.1 := by
    refine forall_mem_flatten_of_mapM (fun node kinds made => ?_) each
    split at made
    · exact knows_of_kinds made
    · exact knows_of_kinds made
    · cases made
      exact fun entry mem => nomatch mem
  split at checked
  · cases checked
    exact List.forall_mem_map.mpr knows
  · cases checked

/-- The members of a union are known. -/
theorem knows_of_members {definition : Document.TypeDefinition} {names : List Text}
    (given : definitions.members definition = .ok names) :
    ∀ name ∈ names, definitions.Knows name := by
  obtain ⟨kinds, asked, checked⟩ := bind_eq_ok_iff.mp given
  obtain ⟨parts, each, rest⟩ := bind_eq_ok_iff.mp (mapError_eq_ok_iff.mp asked)
  cases rest
  have knows : ∀ entry ∈ parts.flatten, definitions.Knows entry.1 := by
    refine forall_mem_flatten_of_mapM (fun node kinds made => ?_) each
    split at made
    · exact knows_of_kinds made
    · cases made
      exact fun entry mem => nomatch mem
  split at checked
  · cases checked
    exact List.forall_mem_map.mpr knows
  · cases checked

/-- The fields of an input object refer to known types. -/
theorem knows_of_definedInputFields {types : InputTypes SchemaFault}
    {definition : Document.TypeDefinition} {fields : List InputValue}
    (given : definitions.definedInputFields types definition = .ok fields) :
    ∀ field ∈ fields, definitions.Knows field.type.base := by
  obtain ⟨parts, each, rest⟩ := bind_eq_ok_iff.mp given
  cases rest
  have knows : ∀ field ∈ parts.flatten, definitions.Knows field.type.base := by
    refine forall_mem_flatten_of_mapM (fun node fields made field fieldMem => ?_) each
    split at made
    · obtain ⟨definition, -, made⟩ := exists_of_mem_mapM made fieldMem
      exact knows_of_inputValue made
    · cases made
      cases fieldMem
  exact fun field mem => knows field (Named.mem_of_mem_ofList mem)

/-- What makes a type that is not a standard one, parts with references still to be worked out. -/
def draftBody (definitions : Definitions) (definition : Document.TypeDefinition) :
    Except SchemaFault (DraftBody SchemaFault) :=
  match definition.body with
  | .scalar => do
    return .scalar (← definitions.appliedText Standard.specifiedByDirective "url"
      definition.directives)
  | .object .. => .ok (.object (definitions.interfaces definition) (definitions.fields definition))
  | .interface .. =>
    .ok (.interface (definitions.interfaces definition) (definitions.fields definition))
  | .union _ => .ok (.union (definitions.members definition))
  | .enum _ => do return .enum (← definitions.enumValues definition)
  | .inputObject _ => do
    let isOneOf ← definitions.isOneOf definition
    let fields := within definition.name .fields
      (definitions.definedInputFields definitions.inputTypes definition)
    return .inputObject fields (.boolean isOneOf)

/-- The draft of a type under a standard name is that of the standard type. -/
theorem typeDraft_of_standard {definition : Document.TypeDefinition} {type : NamedType}
    (standard : Standard.type? definition.name = some type) :
    definitions.typeDraft definition = .ok (.ofType type) := by
  simp [typeDraft, standard, pure, Except.pure]

/-- The draft of a type under any other name is made of what defines it. -/
theorem typeDraft_of_not_standard {definition : Document.TypeDefinition}
    (notStandard : Standard.type? definition.name = none) :
    definitions.typeDraft definition = (do
      let body ← definitions.draftBody definition
      definitions.checkExtensions definition
      pure ⟨definition.name, definition.description, body⟩) := by
  obtain ⟨description, name, directives, body⟩ := definition
  replace notStandard : Standard.type? name = none := notStandard
  cases body <;> simp [typeDraft, notStandard, draftBody] <;> rfl

/-- What the draft of a type is, where there is one. -/
theorem typeDraft_eq_ok {definition : Document.TypeDefinition} {draft : TypeDraft SchemaFault}
    (given : definitions.typeDraft definition = .ok draft) :
    (∃ type, Standard.type? definition.name = some type ∧ draft = .ofType type) ∨
      Standard.type? definition.name = none ∧ ∃ body,
        definitions.draftBody definition = .ok body ∧
        definitions.checkExtensions definition = .ok () ∧
        draft = ⟨definition.name, definition.description, body⟩ := by
  cases standard : Standard.type? definition.name with
  | some type =>
      rw [typeDraft_of_standard standard] at given
      exact .inl ⟨type, rfl, (Except.ok.inj given).symm⟩
  | none =>
      rw [typeDraft_of_not_standard standard] at given
      obtain ⟨body, isBody, rest⟩ := bind_eq_ok_iff.mp given
      obtain ⟨⟨⟩, agree, rest⟩ := bind_eq_ok_iff.mp rest
      exact .inr ⟨rfl, body, isBody, agree, (Except.ok.inj rest).symm⟩

/-- A draft of a type has the name that is defined. -/
theorem name_of_typeDraft {definition : Document.TypeDefinition} {draft : TypeDraft SchemaFault}
    (given : definitions.typeDraft definition = .ok draft) : draft.name = definition.name := by
  rcases typeDraft_eq_ok given with ⟨type, standard, rfl⟩ | ⟨-, body, -, -, rfl⟩
  · exact (Standard.type?_eq_some standard).2
  · rfl

/-- The stages of an object or an interface refer to known types. -/
theorem knows_of_composite_stage {definition : Document.TypeDefinition} {names : List Text}
    (stage : .ok names ∈ [definitions.interfaces definition,
      (definitions.fields definition).map TypeDraft.fieldReferences]) :
    ∀ name ∈ names, definitions.Knows name := by
  rcases List.mem_cons.mp stage with isInterfaces | isFields
  · exact knows_of_interfaces isInterfaces.symm
  · obtain ⟨fields, given, rfl⟩ := map_eq_ok_iff.mp (List.mem_singleton.mp isFields).symm
    exact knows_of_fields given

/-- Whatever stages the draft of a type has, they refer to known types. -/
theorem knows_of_typeDraft {definition : Document.TypeDefinition} {draft : TypeDraft SchemaFault}
    (given : definitions.typeDraft definition = .ok draft) {names : List Text}
    (stage : .ok names ∈ draft.stages) : ∀ name ∈ names, definitions.Knows name := by
  rcases typeDraft_eq_ok given with ⟨type, standard, rfl⟩ | ⟨-, body, isBody, -, rfl⟩
  · intro name mem
    have isStandard := (Standard.type?_eq_some standard).1
    exact .inr (Standard.references_standard isStandard
      (TypeDraft.mem_references_iff.mpr ⟨names, stage, mem⟩))
  · unfold draftBody at isBody
    split at isBody
    · obtain ⟨specifiedBy, -, ⟨⟩⟩ := bind_eq_ok_iff.mp isBody
      cases stage
    · cases isBody
      exact knows_of_composite_stage stage
    · cases isBody
      exact knows_of_composite_stage stage
    · cases isBody
      obtain given : definitions.members definition = .ok names := by
        simpa [TypeDraft.stages, eq_comm] using stage
      exact knows_of_members given
    · obtain ⟨values, -, ⟨⟩⟩ := bind_eq_ok_iff.mp isBody
      cases stage
    · obtain ⟨isOneOf, -, ⟨⟩⟩ := bind_eq_ok_iff.mp isBody
      obtain ⟨fields, given, rfl⟩ := map_eq_ok_iff.mp (List.mem_singleton.mp stage).symm
      have knows := knows_of_definedInputFields (mapError_eq_ok_iff.mp given)
      exact List.forall_mem_map.mpr knows

/-- The arguments of a directive refer to known types. -/
theorem knows_of_directive {definition : Document.DirectiveDefinition} {directive : Directive}
    (given : definitions.directive definition = .ok directive) :
    ∀ name ∈ directive.references, definitions.Knows name := by
  obtain ⟨arguments, inArguments, rest⟩ := bind_eq_ok_iff.mp given
  cases rest
  intro name mem
  obtain ⟨argument, argumentMem, rfl⟩ := List.mem_map.mp mem
  exact knows_of_arguments inArguments argument argumentMem

end Definitions

/-- The type that serves an operation is one that is defined under its usual name, or one that
the schema or one of its extensions names. -/
theorem DocumentParts.root_eq_some {parts : DocumentParts} {operation : Document.Operation}
    {usual name : Text} (isRoot : parts.root operation usual = some name) :
    name ∈ parts.types.map Document.TypeDefinition.name ∨
      name ∈ parts.operations.map Prod.snd := by
  unfold root at isRoot
  split at isRoot
  · next usualIsDefined =>
      cases isRoot
      obtain ⟨type, mem, named⟩ := List.any_eq_true.mp (Bool.and_eq_true_iff.mp usualIsDefined).2
      exact .inl (List.mem_map.mpr ⟨type, mem, of_decide_eq_true named⟩)
  · obtain ⟨entry, found, rfl⟩ := Option.map_eq_some_iff.mp isRoot
    exact .inr (List.mem_map_of_mem (List.mem_reverse.mp (List.mem_of_find?_eq_some found)))

/-- The schema that a document defines is intact. -/
theorem ofDocument_intact {source : Text} {document : List Document.Definition} {isTrusted : Bool}
    {schema : Schema} (defined : ofDocument source document isTrusted = .ok schema) :
    schema.Intact := by
  obtain ⟨drafts, drafted, rest⟩ := bind_eq_ok_iff.mp defined
  obtain ⟨⟨⟩, operationsKnown, rest⟩ := bind_eq_ok_iff.mp rest
  obtain ⟨directives, directed, assembled⟩ := bind_eq_ok_iff.mp rest
  clear defined rest
  generalize DocumentParts.ofDefinitions document = parts at *
  generalize isDefinitions : Definitions.mk source
    (Named.ofList Document.TypeDefinition.name parts.types) parts.typeExtensions = definitions at *
  have sameNames : drafts.map TypeDraft.name = parts.types.map Document.TypeDefinition.name :=
    map_eq_map_of_mapM (fun _ _ given => Definitions.name_of_typeDraft given) drafted
  have knows : ∀ name, definitions.Knows name ↔
      name ∈ (Named.ofList TypeDraft.name drafts).map TypeDraft.name ∨
        (Standard.type? name).isSome := by
    intro name
    rw [Named.mem_map_name_ofList, sameNames, ← Named.mem_map_name_ofList, ← isDefinitions]
    rfl
  have rootKnown : ∀ operation usual name, parts.root operation usual = some name →
      definitions.Knows name := by
    intro operation usual name isRoot
    rcases DocumentParts.root_eq_some isRoot with isDefined | isNamed
    · rw [knows, Named.mem_map_name_ofList, sameNames]
      exact .inl isDefined
    · obtain ⟨entry, mem, rfl⟩ := List.mem_map.mp isNamed
      obtain ⟨kind, found, -⟩ := bind_eq_ok_iff.mp (forall_of_forM operationsKnown mem)
      exact Definitions.knows_of_kindOf found
  refine Draft.assemble_intact ⟨Named.nodup_ofList _ _, ?_, ?_, ?_⟩ assembled
  · intro draft mem standard isStandard
    obtain ⟨definition, -, given⟩ := exists_of_mem_mapM drafted (Named.mem_of_mem_ofList mem)
    rw [Definitions.name_of_typeDraft given] at isStandard
    rw [Definitions.typeDraft_of_standard isStandard] at given
    exact (Except.ok.inj given).symm
  · intro draft mem names stage name nameMem
    obtain ⟨definition, -, given⟩ := exists_of_mem_mapM drafted (Named.mem_of_mem_ofList mem)
    exact (knows name).mp (Definitions.knows_of_typeDraft given stage name nameMem)
  · intro name mem
    rcases List.mem_append.mp mem with isRoot | inDirectives
    · obtain ⟨root, rootMem, rfl⟩ := List.mem_filterMap.mp isRoot
      simp only [List.mem_cons, List.not_mem_nil, or_false] at rootMem
      rcases rootMem with isRoot | isRoot | isRoot
      all_goals exact (knows name).mp (rootKnown _ _ name isRoot.symm)
    · obtain ⟨directive, directiveMem, nameMem⟩ := List.mem_flatMap.mp inDirectives
      rcases List.mem_append.mp directiveMem with isDefined | isMissing
      · obtain ⟨definition, -, given⟩ := exists_of_mem_mapM directed isDefined
        exact (knows name).mp (Definitions.knows_of_directive given name nameMem)
      · exact .inr (Standard.references_directives (List.mem_filter.mp isMissing).1 nameMem)

end SchemaOrder.Schema
