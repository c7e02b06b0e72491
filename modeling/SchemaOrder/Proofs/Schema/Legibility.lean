import SchemaOrder.Proofs.Schema.CoercedDefaults
import SchemaOrder.Proofs.Schema.DefinedTypes
import SchemaOrder.Proofs.Document.RereadDocument

/-!
# Legible schemas

A schema is legible if what is written of it can be read: its names are names, its references are
formed as the language forms them, and its defaults are written as literals of the language. The
schema of a document is legible, because the document could be read; for the defaults this goes
through what coercion sees of the types, which suits the schema that they become.
-/

namespace SchemaOrder.Schema

open Outcome
open Document (IsName Literal)

/-- A schema of which everything that no standard stands for can be written and read again, and
whose parts have different names. -/
structure Legible (schema : Schema) : Prop where
  roots : ∀ name, some name ∈ schema.roots → IsName name
  arguments : ∀ directive ∈ schema.directives, (directive.arguments.map InputValue.name).Nodup
  directives : ∀ directive ∈ schema.directives, isStandardDirective directive.name = false →
    schema.ReadableDirective directive
  types : ∀ type ∈ schema.types, isStandardType type.name = false →
    IsName type.name ∧ schema.ReadableBody type.body ∧ type.body.HasUniqueNames

/-- An argument or an input field can be read if its default is written as a literal that can. -/
theorem readableInput_of_writesReadable {schema : Schema} {input : InputValue}
    (isName : IsName input.name) (type : input.type.IsReadable)
    (default : ∀ value ∈ input.default?, schema.WritesReadable value input.type) :
    schema.ReadableInput input := by
  refine ⟨isName, type, fun literal written => ?_⟩
  unfold writtenDefault at written
  split at written
  · cases written
  · next value given =>
      refine default value given literal ?_
      generalize schema.defaultLiteral value input.type = result at written
      cases result with
      | error fault => cases written
      | ok literal? =>
          cases written
          rfl

/-- No standard type is an input object. -/
theorem Standard.not_inputObject {type : NamedType} (standard : type ∈ Standard.types) :
    type.kind ≠ .inputObject := by
  revert type
  decide

namespace Intact

variable {schema : Schema} (intact : schema.Intact)
include intact

/-- What a schema knows under a name is of the kind of the types that have the name. -/
theorem kind?_of_types {name : Text} {expected : TypeKind}
    (ofTypes : ∀ type ∈ schema.types, type.name = name → type.kind = expected) {kind : TypeKind}
    (isKind : schema.kind? name = some kind) : kind = expected := by
  obtain ⟨type, isType, rfl⟩ := Option.map_eq_some_iff.mp isKind
  obtain ⟨mem, isName⟩ := intact.type?_eq_some_iff.mp isType
  exact ofTypes type mem isName

/-- A schema that has a type under a standard name has a type of the standard kind there. -/
theorem kind?_of_standard {name : Text} {standard : NamedType}
    (isStandard : Standard.type? name = some standard) {kind : TypeKind}
    (isKind : schema.kind? name = some kind) : kind = standard.kind := by
  refine intact.kind?_of_types (fun type mem isName => ?_) isKind
  subst isName
  rw [intact.standard type (intact.definedTypes_eq ▸ mem) standard isStandard]

/-- Input fields are those of an input object that is no standard type. -/
theorem exists_of_inputFields {name : Text} {field : InputValue}
    (mem : field ∈ schema.inputFields name) :
    ∃ type ∈ schema.types, type.name = name ∧ Standard.type? type.name = none ∧
      ∃ oneOf, type.body = .inputObject (schema.inputFields name) oneOf := by
  unfold inputFields at mem ⊢
  cases found : schema.type? name with
  | none =>
      rw [found] at mem
      cases mem
  | some type =>
      obtain ⟨typeMem, rfl⟩ := intact.type?_eq_some_iff.mp found
      rw [found] at mem
      simp only [Option.map_some] at mem ⊢
      cases isBody : type.body with
      | inputObject fields oneOf =>
          refine ⟨type, typeMem, rfl, ?_, oneOf, isBody⟩
          cases isStandard : Standard.type? type.name with
          | none => rfl
          | some standard =>
              have same :=
                intact.standard type (intact.definedTypes_eq ▸ typeMem) standard isStandard
              have notInput := Standard.not_inputObject (Standard.type?_eq_some isStandard).1
              rw [← same, NamedType.kind, isBody] at notInput
              exact absurd rfl notInput
      | _ =>
          rw [isBody] at mem
          cases mem

end Intact

namespace Definitions

/-- Definitions and extensions that are spelled as the language spells them. -/
structure IsSpelled (definitions : Definitions) : Prop where
  types : ∀ definition ∈ definitions.types, definition.IsSpelled
  extensions : ∀ extension ∈ definitions.extensions, extension.IsSpelled

variable {definitions : Definitions} {definition : Document.TypeDefinition} {schema : Schema}

section Spelled

variable (spelled : definitions.IsSpelled) (mem : definition ∈ definitions.types)
include spelled mem

/-- Every node of a type is spelled. -/
theorem IsSpelled.nodes {node : Document.TypeDefinition}
    (nodeMem : node ∈ definitions.nodes definition) : node.body.IsSpelled := by
  rcases List.mem_cons.mp nodeMem with rfl | isExtension
  · exact (spelled.types _ mem).body
  · exact (spelled.extensions _ (List.mem_filter.mp isExtension).1).body

/-- The fields of a type and its extensions are spelled as they should be. -/
theorem IsSpelled.fieldDefinitions :
    ∀ field ∈ definitions.fieldDefinitions definition, field.IsSpelled := by
  intro field fieldMem
  obtain ⟨node, nodeMem, inNode⟩ := List.mem_flatMap.mp fieldMem
  have nodeSpelled := spelled.nodes mem nodeMem
  split at inNode
  · next isObject => exact (isObject ▸ nodeSpelled).2 field inNode
  · next isInterface => exact (isInterface ▸ nodeSpelled).2 field inNode
  · cases inNode

/-- So are the fields of an input object. -/
theorem IsSpelled.inputDefinitions :
    ∀ field ∈ definitions.inputDefinitions definition, field.IsSpelled := by
  intro field fieldMem
  obtain ⟨node, nodeMem, inNode⟩ := List.mem_flatMap.mp fieldMem
  have nodeSpelled := spelled.nodes mem nodeMem
  split at inNode
  · next isInputObject => exact (isInputObject ▸ nodeSpelled) field inNode
  · cases inNode

/-- Interfaces are called by names. -/
theorem IsSpelled.interfaceNames :
    ∀ name ∈ definitions.interfaceNames definition, IsName name := by
  intro name nameMem
  obtain ⟨node, nodeMem, inNode⟩ := List.mem_flatMap.mp nameMem
  have nodeSpelled := spelled.nodes mem nodeMem
  split at inNode
  · next isObject => exact (isObject ▸ nodeSpelled).1 name inNode
  · next isInterface => exact (isInterface ▸ nodeSpelled).1 name inNode
  · cases inNode

/-- So are the members of a union. -/
theorem IsSpelled.memberNames :
    ∀ name ∈ definitions.memberNames definition, IsName name := by
  intro name nameMem
  obtain ⟨node, nodeMem, inNode⟩ := List.mem_flatMap.mp nameMem
  have nodeSpelled := spelled.nodes mem nodeMem
  split at inNode
  · next isUnion => exact (isUnion ▸ nodeSpelled) name inNode
  · cases inNode

/-- So are the values of an enum. -/
theorem IsSpelled.valueDefinitions :
    ∀ value ∈ definitions.valueDefinitions definition, IsName value.name := by
  intro value valueMem
  obtain ⟨node, nodeMem, inNode⟩ := List.mem_flatMap.mp valueMem
  have nodeSpelled := spelled.nodes mem nodeMem
  split at inNode
  · next isEnum => exact (isEnum ▸ nodeSpelled) value inNode
  · cases inNode

end Spelled

/-- The default of an argument or an input field that a spelled definition makes is written as a
literal that can be read. -/
theorem writesReadable_default {types : InputTypes SchemaFault} (suit : types.Suit schema)
    {place : TypePlace} {definition : Document.InputValueDefinition}
    (spelled : definition.IsSpelled) {input : InputValue}
    (given : definitions.inputValue types place definition = .ok input) :
    ∀ value ∈ input.default?, schema.WritesReadable value input.type := by
  intro value isDefault
  obtain ⟨kind, default?, deprecation, -, coerced, -, -, rfl⟩ := inputValue_eq_ok given
  obtain rfl : default? = some value := isDefault
  cases isLiteral : definition.default? with
  | none =>
      rw [isLiteral] at coerced
      cases coerced
  | some literal =>
      rw [isLiteral] at coerced
      exact suit.writesReadable_of_coerce (spelled.default literal isLiteral) coerced

/-- What is made of an input value has its name and its type. -/
theorem name_of_inputValue {types : InputTypes SchemaFault} {place : TypePlace}
    {definition : Document.InputValueDefinition} {value : InputValue}
    (given : definitions.inputValue types place definition = .ok value) :
    value.name = definition.name ∧ value.type = definition.type := by
  obtain ⟨_, _, _, -, -, -, -, rfl⟩ := inputValue_eq_ok given
  exact ⟨rfl, rfl⟩

/-- What a spelled definition of an argument or an input field makes can be read. -/
theorem readableInput {types : InputTypes SchemaFault} (suit : types.Suit schema)
    {place : TypePlace} {definition : Document.InputValueDefinition}
    (spelled : definition.IsSpelled) {value : InputValue}
    (given : definitions.inputValue types place definition = .ok value) :
    schema.ReadableInput value := by
  obtain ⟨sameName, sameType⟩ := name_of_inputValue given
  exact readableInput_of_writesReadable (sameName ▸ spelled.isName) (sameType ▸ spelled.type)
    (writesReadable_default suit spelled given)

/-- What is made of definitions put together by name is of different names. -/
theorem nodup_of_forall₂ {α β : Type} {related : α → β → Prop} {name : α → Text}
    {name' : β → Text} {things : List α} {results : List β}
    (all : List.Forall₂ related (Named.ofList name things) results)
    (names : ∀ thing result, related thing result → name' result = name thing) :
    (results.map name').Nodup := by
  rw [map_eq_map_of_forall₂ all names]
  exact Named.nodup_ofList name things

/-- What spelled definitions of arguments make can be read, and is of different names. -/
theorem readableArguments (suit : definitions.inputTypes.Suit schema)
    {defined : List Document.InputValueDefinition} (spelled : ∀ each ∈ defined, each.IsSpelled)
    {arguments : List InputValue} (given : definitions.arguments defined = .ok arguments) :
    (∀ argument ∈ arguments, schema.ReadableInput argument) ∧
      (arguments.map InputValue.name).Nodup := by
  have all := forall₂_of_arguments given
  refine ⟨fun argument mem => ?_, nodup_of_forall₂ all fun _ _ made => (name_of_inputValue made).1⟩
  obtain ⟨definition, definitionMem, made⟩ := exists_of_mem_forall₂ all mem
  exact readableInput suit (spelled _ (Named.mem_of_mem_ofList definitionMem)) made

/-- What spelled definitions of fields make can be read, and is of different names. -/
theorem readableFields (suit : definitions.inputTypes.Suit schema)
    {defined : List Document.FieldDefinition} (spelled : ∀ each ∈ defined, each.IsSpelled)
    {fields : List Field}
    (all : List.Forall₂ (fun definition field => definitions.field definition = .ok field)
      (Named.ofList Document.FieldDefinition.name defined) fields) :
    (∀ field ∈ fields, schema.ReadableField field) ∧ (fields.map Field.name).Nodup ∧
      ∀ field ∈ fields, (field.arguments.map InputValue.name).Nodup := by
  have each : ∀ field ∈ fields, schema.ReadableField field ∧
      (field.arguments.map InputValue.name).Nodup := by
    intro field mem
    obtain ⟨definition, definitionMem, made⟩ := exists_of_mem_forall₂ all mem
    obtain ⟨isName, arguments, type⟩ := spelled _ (Named.mem_of_mem_ofList definitionMem)
    obtain ⟨_, _, _, -, given, -, -, rfl⟩ := field_eq_ok made
    obtain ⟨readable, unique⟩ := readableArguments suit arguments given
    exact ⟨⟨isName, type, readable⟩, unique⟩
  refine ⟨fun field mem => (each field mem).1, nodup_of_forall₂ all ?_,
    fun field mem => (each field mem).2⟩
  intro definition field made
  obtain ⟨_, _, _, -, -, -, -, rfl⟩ := field_eq_ok made
  rfl

/-- A body that spelled definitions make can be read, and its parts are of different names. -/
theorem readableBody (suit : definitions.inputTypes.Suit schema) (spelled : definitions.IsSpelled)
    (mem : definition ∈ definitions.types) {body : Body}
    (makes : definitions.Makes definition body) :
    schema.ReadableBody body ∧ body.HasUniqueNames := by
  cases makes with
  | scalar => exact ⟨trivial, trivial⟩
  | object _ made | interface _ made =>
      obtain ⟨readable, unique⟩ := readableFields suit (spelled.fieldDefinitions mem) made
      exact ⟨⟨spelled.interfaceNames mem, readable⟩, unique⟩
  | union => exact ⟨spelled.memberNames mem, trivial⟩
  | enum _ made =>
      have names : ∀ definition value, definitions.enumValue definition = .ok value →
          value.name = definition.name := by
        intro definition value given
        obtain ⟨_, -, rest⟩ := bind_eq_ok_iff.mp given
        cases rest
        rfl
      refine ⟨fun value valueMem => ?_, nodup_of_forall₂ made names⟩
      obtain ⟨definition, definitionMem, given⟩ := exists_of_mem_forall₂ made valueMem
      rw [names _ _ given]
      exact spelled.valueDefinitions mem _ (Named.mem_of_mem_ofList definitionMem)
  | inputObject _ _ made =>
      refine ⟨fun field fieldMem => ?_,
        nodup_of_forall₂ made fun _ _ given => (name_of_inputValue given).1⟩
      obtain ⟨definition, definitionMem, given⟩ := exists_of_mem_forall₂ made fieldMem
      exact readableInput suit
        (spelled.inputDefinitions mem _ (Named.mem_of_mem_ofList definitionMem)) given

/-- A directive that a spelled definition makes can be read. -/
theorem readableDirective (suit : definitions.inputTypes.Suit schema)
    {definition : Document.DirectiveDefinition} (spelled : definition.IsSpelled)
    {directive : Directive} (given : definitions.directive definition = .ok directive) :
    schema.ReadableDirective directive ∧ (directive.arguments.map InputValue.name).Nodup := by
  obtain ⟨arguments, inArguments, rest⟩ := bind_eq_ok_iff.mp given
  cases rest
  obtain ⟨readable, unique⟩ := readableArguments suit spelled.arguments inArguments
  exact ⟨⟨spelled.isName, readable, spelled.locations⟩, unique⟩

/-- Every type of a schema that is no standard one is made by a definition. -/
def Account (definitions : Definitions) (schema : Schema) : Prop :=
  ∀ type ∈ schema.types, Standard.type? type.name = none → ∃ definition ∈ definitions.types,
    type.name = definition.name ∧ definitions.Makes definition type.body

/-- An input object of a schema is made by a definition of the document. -/
theorem exists_of_inputFields (intact : schema.Intact) (account : definitions.Account schema)
    {name : Text} {field : InputValue} (mem : field ∈ schema.inputFields name) :
    ∃ definition ∈ definitions.types, definition.name = name ∧
      List.Forall₂ (fun definition value =>
          definitions.inputValue definitions.inputTypes .inputField definition = .ok value)
        (Named.ofList Document.InputValueDefinition.name
          (definitions.inputDefinitions definition)) (schema.inputFields name) := by
  obtain ⟨type, typeMem, rfl, ordinary, oneOf, isBody⟩ := intact.exists_of_inputFields mem
  obtain ⟨definition, definitionMem, sameName, makes⟩ := account type typeMem ordinary
  rw [isBody] at makes
  cases makes with
  | inputObject _ _ made => exact ⟨definition, definitionMem, sameName.symm, made⟩

/-- The input fields of a schema have names that were spelled. -/
theorem isName_of_inputFields (intact : schema.Intact) (account : definitions.Account schema)
    (spelled : definitions.IsSpelled) {name : Text} {field : InputValue}
    (mem : field ∈ schema.inputFields name) : IsName field.name := by
  obtain ⟨definition, definitionMem, -, made⟩ := exists_of_inputFields intact account mem
  obtain ⟨input, inputMem, given⟩ := exists_of_mem_forall₂ made mem
  rw [(name_of_inputValue given).1]
  exact (spelled.inputDefinitions definitionMem _ (Named.mem_of_mem_ofList inputMem)).isName

/-- A standard type has the shape of its kind. -/
theorem suits_of_standard (intact : schema.Intact) {name : Text} {standard : NamedType}
    (isStandard : Standard.type? name = some standard) (fuel : Nat) :
    (inputShape fuel definitions name).Suits schema name := by
  unfold inputShape
  simp only [isStandard]
  split
  · next isScalar =>
      exact InputShape.suits_scalar fun _ isKind =>
        (intact.kind?_of_standard isStandard isKind).trans isScalar
  · next isEnum =>
      exact InputShape.suits_enum fun _ isKind =>
        (intact.kind?_of_standard isStandard isKind).trans isEnum
  · trivial

/-- A body is of the kind of the definition that makes it. -/
theorem Makes.kind {body : Body} (makes : definitions.Makes definition body) :
    body.kind = definition.body.kind := by
  cases makes with
  | scalar _ isBody | object isBody _ | interface isBody _ | union isBody | enum isBody _
  | inputObject _ isBody _ =>
      rw [isBody]
      rfl

/-- A type that a document defines has the shape of its kind, and its fields have readable
defaults if these are coerced with types that suit the schema. -/
theorem suits_of_ordinary (intact : schema.Intact) (account : definitions.Account schema)
    (spelled : definitions.IsSpelled)
    (unique : (definitions.types.map Document.TypeDefinition.name).Nodup) {name : Text}
    (ordinary : Standard.type? name = none) {fuel : Nat}
    (below : ∀ less, fuel = less + 1 →
      (⟨inputShape less definitions, .unexpectedInputType⟩ : InputTypes SchemaFault).Suit schema) :
    (inputShape fuel definitions name).Suits schema name := by
  unfold inputShape
  simp only [ordinary]
  split
  · trivial
  next definition found =>
  obtain ⟨definitionMem, isName⟩ := Named.of_find?_eq_some found
  have isOnly : ∀ other ∈ definitions.types, other.name = name → other = definition := by
    intro other otherMem sameName
    exact List.inj_on_of_nodup_map unique otherMem definitionMem (sameName.trans isName.symm)
  have kinds : ∀ kind, schema.kind? name = some kind → kind = definition.body.kind := by
    intro kind isKind
    refine intact.kind?_of_types (fun type typeMem sameName => ?_) isKind
    subst sameName
    obtain ⟨other, otherMem, sameName, makes⟩ := account type typeMem ordinary
    rw [isOnly other otherMem sameName.symm] at makes
    exact makes.kind
  split
  · next isScalar =>
      rw [isScalar] at kinds
      exact InputShape.suits_scalar kinds
  · next isEnum =>
      rw [isEnum] at kinds
      exact InputShape.suits_enum kinds
  · intro known isKnown field fieldMem own ownMem sameName
    cases fuel with
    | zero => cases isKnown
    | succ less =>
        have suit := below less rfl
        have made := forall₂_of_definedInputFields (mapError_eq_ok_iff.mp isKnown)
        obtain ⟨other, otherMem, isOther, madeOwn⟩ := exists_of_inputFields intact account ownMem
        rw [isOnly other otherMem isOther] at madeOwn
        obtain ⟨first, firstMem, isField⟩ := exists_of_mem_forall₂ made fieldMem
        obtain ⟨second, secondMem, isOwn⟩ := exists_of_mem_forall₂ madeOwn ownMem
        obtain ⟨fieldName, fieldType⟩ := name_of_inputValue isField
        obtain ⟨ownName, ownType⟩ := name_of_inputValue isOwn
        obtain rfl : second = first := List.inj_on_of_nodup_map (Named.nodup_ofList _ _) secondMem
          firstMem (ownName.symm.trans (sameName.trans fieldName))
        refine ⟨ownType.trans fieldType.symm, fun value isDefault => ?_⟩
        rw [ownType, ← fieldType]
        refine writesReadable_default suit ?_ isField value isDefault
        exact spelled.inputDefinitions definitionMem _ (Named.mem_of_mem_ofList firstMem)
  · trivial

/-- What coercion sees of the types of a document suits the schema that they become, however far
defaults are followed. -/
theorem suit_inputShape (intact : schema.Intact) (account : definitions.Account schema)
    (spelled : definitions.IsSpelled)
    (unique : (definitions.types.map Document.TypeDefinition.name).Nodup) (fuel : Nat) :
    (⟨inputShape fuel definitions, .unexpectedInputType⟩ : InputTypes SchemaFault).Suit schema := by
  refine .of_levels (fun fuel => ⟨inputShape fuel definitions, .unexpectedInputType⟩)
    (fun _ _ mem => isName_of_inputFields intact account spelled mem) ?_ fuel
  intro fuel below name
  cases isStandard : Standard.type? name with
  | some standard => exact suits_of_standard intact isStandard fuel
  | none => exact suits_of_ordinary intact account spelled unique isStandard below

end Definitions

/-- The parts of a spelled document are spelled. -/
theorem DocumentParts.isSpelled {document : List Document.Definition}
    (spelled : ∀ definition ∈ document, definition.IsSpelled) :
    (∀ type ∈ (ofDefinitions document).types, type.IsSpelled) ∧
      (∀ type ∈ (ofDefinitions document).typeExtensions, type.IsSpelled) ∧
      (∀ directive ∈ (ofDefinitions document).directives, directive.IsSpelled) ∧
      ∀ operation ∈ (ofDefinitions document).operations, IsName operation.2 := by
  refine ⟨fun type mem => ?_, fun type mem => ?_, fun directive mem => ?_, fun entry mem => ?_⟩
  · obtain ⟨definition, definitionMem, isType⟩ := List.mem_filterMap.mp mem
    have isSpelled := spelled definition definitionMem
    cases definition <;> cases isType
    exact isSpelled
  · obtain ⟨definition, definitionMem, isType⟩ := List.mem_filterMap.mp mem
    have isSpelled := spelled definition definitionMem
    cases definition <;> cases isType
    exact isSpelled
  · obtain ⟨definition, definitionMem, isDirective⟩ := List.mem_filterMap.mp mem
    have isSpelled := spelled definition definitionMem
    cases definition <;> cases isDirective
    exact isSpelled
  · obtain ⟨schema, schemaMem, inSchema⟩ := List.mem_flatMap.mp mem
    rcases List.mem_append.mp schemaMem with isLast | isExtension
    · obtain ⟨definition, definitionMem, isSchema⟩ :=
        List.mem_filterMap.mp (List.mem_reverse.mp (List.mem_of_mem_take isLast))
      have isSpelled := spelled definition definitionMem
      cases definition <;> cases isSchema
      exact isSpelled entry inSchema
    · obtain ⟨definition, definitionMem, isSchema⟩ := List.mem_filterMap.mp isExtension
      have isSpelled := spelled definition definitionMem
      cases definition <;> cases isSchema
      exact isSpelled entry inSchema

/-- A standard directive has the name of one. -/
theorem isStandardDirective_of_standard {directive : Directive}
    (mem : directive ∈ Standard.directives) : isStandardDirective directive.name = true := by
  revert directive
  decide

/-- The directives that a schema is given because it has none of their names are standard ones. -/
theorem isStandardDirective_of_missing {directives : List Directive} {directive : Directive}
    (mem : directive ∈ missingDirectives directives) :
    isStandardDirective directive.name = true :=
  isStandardDirective_of_standard (List.mem_filter.mp mem).1

/-- The types and directives of a schema that a spelled document defines are standard ones, or made
by spelled definitions with different names. -/
theorem exists_account {source : Text} {document : List Document.Definition} {isTrusted : Bool}
    {schema : Schema} (spelled : ∀ definition ∈ document, definition.IsSpelled)
    (defined : ofDocument source document isTrusted = .ok schema) :
    ∃ definitions : Definitions, definitions.IsSpelled ∧
      (definitions.types.map Document.TypeDefinition.name).Nodup ∧ definitions.Account schema ∧
      ∀ directive ∈ schema.directives, directive ∈ Standard.directives ∨
        ∃ definition, definition.IsSpelled ∧ definitions.directive definition = .ok directive := by
  obtain ⟨listed, directives, isListed, recollects, directed, allDirectives, -⟩ :=
    ofDocument_eq_ok defined rfl rfl
  obtain ⟨typesSpelled, extensionsSpelled, directivesSpelled, -⟩ :=
    DocumentParts.isSpelled spelled
  refine ⟨⟨source, Named.ofList Document.TypeDefinition.name
      (DocumentParts.ofDefinitions document).types,
      (DocumentParts.ofDefinitions document).typeExtensions⟩,
    ⟨fun _ mem => typesSpelled _ (Named.mem_of_mem_ofList mem), extensionsSpelled⟩,
    Named.nodup_ofList _ _, fun type mem ordinary => ?_, fun directive mem => ?_⟩
  · obtain ⟨definition, definitionMem, given⟩ :=
      exists_of_mem_forall₂ isListed (recollects.mem_listed mem ordinary)
    have sameName := Definitions.name_of_typeDraft given
    rw [TypeDraft.name_ofType] at sameName
    exact ⟨definition, definitionMem, Definitions.makes_of_typeDraft given (sameName ▸ ordinary)⟩
  · rw [allDirectives] at mem
    rcases List.mem_append.mp mem with isDefined | isMissing
    · obtain ⟨definition, definitionMem, given⟩ := exists_of_mem_forall₂ directed isDefined
      exact .inr ⟨definition, directivesSpelled _ definitionMem, given⟩
    · exact .inl (List.mem_filter.mp isMissing).1

/-- The schema that a document defines is legible, if the document is spelled. -/
theorem ofDocument_legible {source : Text} {document : List Document.Definition}
    {isTrusted : Bool} {schema : Schema} (spelled : ∀ definition ∈ document, definition.IsSpelled)
    (defined : ofDocument source document isTrusted = .ok schema) : schema.Legible := by
  have intact := ofDocument_intact defined
  obtain ⟨definitions, areSpelled, unique, account, directives⟩ := exists_account spelled defined
  obtain ⟨-, -, -, -, -, -, -, isQuery, isMutation, isSubscription⟩ :=
    ofDocument_eq_ok defined rfl rfl
  obtain ⟨typesSpelled, -, -, operationsSpelled⟩ := DocumentParts.isSpelled spelled
  have rootNames : ∀ operation usual name,
      (DocumentParts.ofDefinitions document).root operation usual = some name → IsName name := by
    intro operation usual name isRoot
    rcases DocumentParts.root_eq_some isRoot with isDefined | isNamed
    · obtain ⟨type, mem, rfl⟩ := List.mem_map.mp isDefined
      exact (typesSpelled type mem).isName
    · obtain ⟨entry, mem, rfl⟩ := List.mem_map.mp isNamed
      exact operationsSpelled entry mem
  have suit := Definitions.suit_inputShape intact account areSpelled unique
    (definitions.types.length + 1)
  refine ⟨fun name isRoot => ?_, fun directive mem => ?_, fun directive mem ordinary => ?_,
    fun type mem ordinary => ?_⟩
  · simp only [roots, isQuery, isMutation, isSubscription, List.mem_cons, List.not_mem_nil,
      or_false] at isRoot
    rcases isRoot with isRoot | isRoot | isRoot
    all_goals exact rootNames _ _ name isRoot.symm
  · rcases directives directive mem with isStandard | ⟨definition, isSpelled, given⟩
    · have standard : ∀ directive ∈ Standard.directives,
          (directive.arguments.map InputValue.name).Nodup := by decide
      exact standard directive isStandard
    · exact (Definitions.readableDirective suit isSpelled given).2
  · rcases directives directive mem with isStandard | ⟨definition, isSpelled, given⟩
    · rw [isStandardDirective_of_standard isStandard] at ordinary
      cases ordinary
    · exact (Definitions.readableDirective suit isSpelled given).1
  · obtain ⟨definition, definitionMem, sameName, makes⟩ :=
      account type mem (isStandardType_eq_false_iff.mp ordinary)
    exact ⟨sameName ▸ (areSpelled.types definition definitionMem).isName,
      Definitions.readableBody suit areSpelled definitionMem makes⟩

end SchemaOrder.Schema
