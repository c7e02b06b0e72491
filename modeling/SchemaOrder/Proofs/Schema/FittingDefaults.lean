import SchemaOrder.Proofs.Schema.FittingValues
import SchemaOrder.Proofs.Schema.Legibility

/-!
# Defaults that fit their types

All defaults of a schema that a document defines fit their types, standard ones left aside. What
coercion sees of the types of the document on any level is what the schema has, since the levels
extend each other, so that `Fits.of_coerce` applies level by level.
-/

namespace SchemaOrder.Schema

open Outcome

variable {schema : Schema}

/-- An argument or an input field of a type or a directive that is no standard one. -/
def IsOwnInput (schema : Schema) (input : InputValue) : Prop :=
  (∃ type ∈ schema.types, isStandardType type.name = false ∧ input ∈ type.body.inputs) ∨
    ∃ directive ∈ schema.directives, isStandardDirective directive.name = false ∧
      input ∈ directive.arguments

/-- A schema whose defaults fit their types, standard types and directives left aside. -/
def HasFittingDefaults (schema : Schema) : Prop :=
  ∀ input, schema.IsOwnInput input → ∀ value ∈ input.default?, schema.Fits value input.type

/-- The arguments and input fields of a body that can be read can be read. -/
theorem readableInput_of_readableBody {body : Body} (readable : schema.ReadableBody body)
    {input : InputValue} (mem : input ∈ body.inputs) : schema.ReadableInput input := by
  cases body with
  | object interfaces fields | interface interfaces fields =>
      obtain ⟨field, fieldMem, inField⟩ := List.mem_flatMap.mp mem
      exact (readable.2 field fieldMem).arguments input inField
  | inputObject fields oneOf => exact readable input mem
  | scalar | union | enum => cases mem

/-- The arguments and input fields of a legible schema can be read. -/
theorem Legible.readableInput (legible : schema.Legible) {input : InputValue}
    (isOwn : schema.IsOwnInput input) : schema.ReadableInput input := by
  rcases isOwn with ⟨type, mem, ordinary, inType⟩ | ⟨directive, mem, ordinary, inDirective⟩
  · exact readableInput_of_readableBody (legible.types type mem ordinary).2.1 inType
  · exact (legible.directives directive mem ordinary).arguments input inDirective

namespace Intact

variable (intact : schema.Intact)
include intact

/-- Every name of an intact schema leads to a type. -/
theorem isSome_type? {name : Text} (mem : name ∈ schema.typeNames) :
    (schema.type? name).isSome := by
  rw [intact.typeNames_eq] at mem
  obtain ⟨type, typeMem, rfl⟩ := List.mem_map.mp mem
  rw [intact.type?_eq_some_iff.mpr ⟨typeMem, rfl⟩]
  rfl

/-- The types of arguments and input fields of an intact schema are there. -/
theorem isSome_type?_of_isOwnInput {input : InputValue} (isOwn : schema.IsOwnInput input) :
    (schema.type? input.type.base).isSome := by
  refine intact.isSome_type? ?_
  rcases isOwn with ⟨type, mem, -, inType⟩ | ⟨directive, mem, -, inDirective⟩
  · exact intact.closed.types type (intact.definedTypes_eq ▸ mem) _
      (Body.base_mem_references inType)
  · exact intact.closed.directives directive mem _ (List.mem_map_of_mem inDirective)

/-- The fields of an input object are input fields of the schema. -/
theorem isOwnInput_of_inputFields {name : Text} {field : InputValue}
    (mem : field ∈ schema.inputFields name) : schema.IsOwnInput field := by
  obtain ⟨type, typeMem, -, ordinary, oneOf, isBody⟩ := intact.exists_of_inputFields mem
  refine .inl ⟨type, typeMem, isStandardType_eq_false_iff.mpr ordinary, ?_⟩
  rw [isBody]
  exact mem

/-- The input fields of an intact schema that is legible lead to its types and can be told
apart. -/
theorem hasSoundInputs (legible : schema.Legible) : schema.HasSoundInputs where
  unique name := by
    cases areFields : schema.inputFields name with
    | nil => exact List.nodup_nil
    | cons first others =>
        obtain ⟨type, typeMem, -, ordinary, oneOf, isBody⟩ :=
          intact.exists_of_inputFields (areFields ▸ List.mem_cons_self)
        obtain ⟨-, -, unique⟩ :=
          legible.types type typeMem (isStandardType_eq_false_iff.mpr ordinary)
        rw [isBody] at unique
        exact areFields ▸ unique
  readable _ _ mem := (legible.readableInput (intact.isOwnInput_of_inputFields mem)).type
  closed _ _ mem := intact.isSome_type?_of_isOwnInput (intact.isOwnInput_of_inputFields mem)

/-- A shape of a standard type shows what the standard type is. -/
theorem shows_standard {ε : Type} {related : List InputValue → List InputValue → Prop}
    {name : Text} {standard type : NamedType} (isStandard : Standard.type? name = some standard)
    (isType : schema.type? name = some type) {shape : InputShape ε}
    (isScalar : standard.kind = .scalar → shape = .scalar)
    (isEnum : ∀ values, standard.body = .enum values →
      shape = .enum (values.map EnumValue.name))
    (isOutput : standard.kind.isInput = false → shape = .output) :
    shape.Shows related type.body := by
  obtain ⟨mem, rfl⟩ := intact.type?_eq_some_iff.mp isType
  obtain rfl := intact.standard type (intact.definedTypes_eq ▸ mem) standard isStandard
  have notInput := Standard.not_inputObject (Standard.type?_eq_some isStandard).1
  obtain ⟨name, description, body⟩ := type
  cases body with
  | scalar specifiedBy =>
      rw [isScalar rfl]
      exact .scalar specifiedBy
  | enum values =>
      rw [isEnum values rfl]
      exact .enum fun _ => .rfl
  | inputObject => exact absurd rfl notInput
  | object | interface | union =>
      rw [isOutput rfl]
      exact .output rfl

end Intact

namespace Definitions

variable {definitions : Definitions} {definition : Document.TypeDefinition}

section Levels

variable {more less : InputTypes SchemaFault} (extend : more.Extends less)
include extend

/-- An argument or an input field is the same on every level that it is worked out on. -/
theorem inputValue_of_extends {place : TypePlace} {definition : Document.InputValueDefinition}
    {value : InputValue} (given : definitions.inputValue less place definition = .ok value) :
    definitions.inputValue more place definition = .ok value := by
  obtain ⟨description, name, type, default?, directives⟩ := definition
  cases default? with
  | none => exact given
  | some literal =>
      simp only [inputValue, bind_eq_ok_iff] at given ⊢
      obtain ⟨kind, isKind, default?, coerced, rest⟩ := given
      exact ⟨kind, isKind, default?, Coercion.coerce_of_extends extend _ _ _ coerced, rest⟩

/-- The fields of an input object are the same on every level that they are worked out on. -/
theorem definedInputFields_of_extends {fields : List InputValue}
    (given : definitions.definedInputFields less definition = .ok fields) :
    definitions.definedInputFields more definition = .ok fields := by
  obtain ⟨parts, each, rest⟩ := bind_eq_ok_iff.mp given
  refine bind_eq_ok_iff.mpr ⟨parts, mapM_eq_ok_of_imp (fun node made isMade => ?_) each, rest⟩
  split at isMade
  · exact mapM_eq_ok_of_imp (fun _ _ => inputValue_of_extends extend) isMade
  · exact isMade

end Levels

/-- What coercion sees of the types of a document on one level. -/
abbrev level (definitions : Definitions) (fuel : Nat) : InputTypes SchemaFault :=
  ⟨inputShape fuel definitions, .unexpectedInputType⟩

/-- Every level extends the lower ones. -/
theorem level_extends {more less : Nat} (atMost : less ≤ more) :
    (definitions.level more).Extends (definitions.level less) := by
  refine .of_levels definitions.level (fun more less below name => ?_) atMost
  unfold level inputShape
  dsimp only
  cases Standard.type? name with
  | some standard => exact .refl _
  | none =>
      cases Named.find? Document.TypeDefinition.name name definitions.types with
      | none => exact .refl _
      | some definition =>
          cases isBody : definition.body with
          | inputObject defined =>
              dsimp only
              rw [isBody]
              refine .inputObject _ fun known isKnown => ?_
              cases less with
              | zero => cases isKnown
              | succ less =>
                  obtain ⟨more, rfl, extend⟩ := below less rfl
                  exact mapError_eq_ok_iff.mpr
                    (definedInputFields_of_extends extend (mapError_eq_ok_iff.mp isKnown))
          | scalar | object | interface | union | enum =>
              dsimp only
              rw [isBody]
              exact .refl _

/-- The default of an argument or an input field that a spelled definition makes fits its type. -/
theorem fits_default {types : InputTypes SchemaFault} (sound : schema.HasSoundInputs)
    (shows : types.Show schema.SameAndFit schema) {place : TypePlace}
    {definition : Document.InputValueDefinition} (spelled : definition.IsSpelled)
    {input : InputValue} (given : definitions.inputValue types place definition = .ok input)
    (isKnown : (schema.type? input.type.base).isSome) :
    ∀ value ∈ input.default?, schema.Fits value input.type := by
  intro value isDefault
  obtain ⟨kind, default?, deprecation, -, coerced, -, -, rfl⟩ := inputValue_eq_ok given
  obtain rfl : default? = some value := isDefault
  cases isLiteral : definition.default? with
  | none =>
      rw [isLiteral] at coerced
      cases coerced
  | some literal =>
      rw [isLiteral] at coerced
      exact .of_coerce sound shows (spelled.default literal isLiteral) isKnown spelled.type coerced

/-- The names of the values that a definition and its extensions hold. -/
theorem enumValueNames_eq (definitions : Definitions) (definition : Document.TypeDefinition) :
    definitions.enumValueNames definition =
      (definitions.valueDefinitions definition).map Document.EnumValueDefinition.name := by
  rw [enumValueNames, valueDefinitions, List.map_flatMap]
  refine List.flatMap_congr fun node _ => ?_
  cases node.body <;> rfl

/-- The arguments and input fields of a body are made of spelled definitions. -/
theorem exists_of_inputs (spelled : definitions.IsSpelled) (mem : definition ∈ definitions.types)
    {body : Body} (makes : definitions.Makes definition body) {input : InputValue}
    (inBody : input ∈ body.inputs) : ∃ place defined, defined.IsSpelled ∧
      definitions.inputValue definitions.inputTypes place defined = .ok input := by
  have inFields : ∀ {fields : List Field}, input ∈ fields.flatMap Field.arguments →
      List.Forall₂ (fun definition field => definitions.field definition = .ok field)
        (Named.ofList Document.FieldDefinition.name (definitions.fieldDefinitions definition))
        fields → ∃ place defined, defined.IsSpelled ∧
          definitions.inputValue definitions.inputTypes place defined = .ok input := by
    intro fields inFields made
    obtain ⟨field, fieldMem, inField⟩ := List.mem_flatMap.mp inFields
    obtain ⟨defined, definedMem, isField⟩ := exists_of_mem_forall₂ made fieldMem
    obtain ⟨_, _, _, -, given, -, -, rfl⟩ := field_eq_ok isField
    obtain ⟨argument, argumentMem, isInput⟩ :=
      exists_of_mem_forall₂ (forall₂_of_arguments given) inField
    have fieldSpelled := spelled.fieldDefinitions mem _ (Named.mem_of_mem_ofList definedMem)
    exact ⟨_, argument, fieldSpelled.arguments _ (Named.mem_of_mem_ofList argumentMem), isInput⟩
  cases makes with
  | object _ made | interface _ made => exact inFields inBody made
  | inputObject _ _ made =>
      obtain ⟨defined, definedMem, isInput⟩ := exists_of_mem_forall₂ made inBody
      exact ⟨_, defined, spelled.inputDefinitions mem _ (Named.mem_of_mem_ofList definedMem),
        isInput⟩
  | scalar | union | enum => cases inBody

/-- A standard type is seen as it is, on every level. -/
theorem shows_of_standard (intact : schema.Intact) {name : Text} {standard type : NamedType}
    (isStandard : Standard.type? name = some standard) (isType : schema.type? name = some type)
    (fuel : Nat) {related : List InputValue → List InputValue → Prop} :
    ((definitions.level fuel).shape name).Shows related type.body := by
  refine intact.shows_standard isStandard isType ?_ ?_ ?_
  all_goals
    unfold level inputShape
    simp only [isStandard]
  · intro isScalar
    rw [isScalar]
  · intro values isBody
    rw [NamedType.kind, isBody]
    simp only [Body.kind, enumNames, isBody]
  · intro notInput
    cases isKind : standard.kind <;> rw [isKind] at notInput <;> first | rfl | cases notInput

section Account

variable (intact : schema.Intact) (legible : schema.Legible)
  (account : definitions.Account schema) (spelled : definitions.IsSpelled)
  (unique : (definitions.types.map Document.TypeDefinition.name).Nodup)
include intact legible account spelled unique

/-- A type that a document defines is seen as it is, and its fields have defaults that fit, if
these are coerced on a level that sees the types of the schema as they are. -/
theorem shows_of_ordinary {name : Text} {type : NamedType} (isType : schema.type? name = some type)
    (ordinary : Standard.type? name = none) {fuel : Nat}
    (atMost : fuel ≤ definitions.types.length + 1)
    (below : ∀ less, fuel = less + 1 →
      (definitions.level less).Show schema.SameAndFit schema) :
    ((definitions.level fuel).shape name).Shows schema.SameAndFit type.body := by
  obtain ⟨mem, rfl⟩ := intact.type?_eq_some_iff.mp isType
  obtain ⟨definition, definitionMem, sameName, makes⟩ := account type mem ordinary
  have found : Named.find? Document.TypeDefinition.name type.name definitions.types =
      some definition := (Named.find?_eq_some_iff unique).mpr ⟨definitionMem, sameName.symm⟩
  have areFields : ∀ fields oneOf, type.body = .inputObject fields oneOf →
      schema.inputFields type.name = fields := by
    intro fields oneOf isBody
    rw [inputFields, isType, Option.map_some, isBody]
  unfold level inputShape
  simp only [ordinary, found]
  generalize isBody : type.body = body at makes
  cases makes with
  | scalar specifiedBy isScalar =>
      rw [isScalar]
      exact .scalar specifiedBy
  | object isObject =>
      rw [isObject]
      exact .output rfl
  | interface isInterface =>
      rw [isInterface]
      exact .output rfl
  | union isUnion =>
      rw [isUnion]
      exact .output rfl
  | @enum defined values isEnum made =>
      rw [isEnum]
      refine .enum fun name => ?_
      have sameNames : values.map EnumValue.name =
          (Named.ofList Document.EnumValueDefinition.name
            (definitions.valueDefinitions definition)).map Document.EnumValueDefinition.name := by
        refine map_eq_map_of_forall₂ made fun definition value given => ?_
        obtain ⟨deprecation, -, rest⟩ := bind_eq_ok_iff.mp given
        cases rest
        rfl
      rw [sameNames, enumValueNames_eq]
      exact Named.mem_map_name_ofList.symm
  | @inputObject defined fields isOneOf isInputObject made said =>
      rw [isInputObject]
      dsimp only
      rw [said]
      refine .inputObject (by cases isOneOf <;> rfl) fun known isKnown => ?_
      cases fuel with
      | zero => cases isKnown
      | succ less =>
          have isMade := mapError_eq_ok_iff.mp isKnown
          have extend : definitions.inputTypes.Extends (definitions.level less) :=
            level_extends (Nat.le_of_succ_le atMost)
          have same : known = fields :=
            eq_of_forall₂ (fun isFirst isSecond => Except.ok.inj (isFirst.symm.trans isSecond))
              (forall₂_of_definedInputFields (definedInputFields_of_extends extend isMade)) made
          refine ⟨same, fun field fieldMem => ?_⟩
          obtain ⟨input, inputMem, given⟩ :=
            exists_of_mem_forall₂ (forall₂_of_definedInputFields isMade) (same ▸ fieldMem)
          refine fits_default (intact.hasSoundInputs legible) (below less rfl)
            (spelled.inputDefinitions definitionMem _ (Named.mem_of_mem_ofList inputMem)) given
            ((intact.hasSoundInputs legible).closed type.name field ?_)
          rw [areFields _ _ isBody]
          exact fieldMem

/-- Coercion sees the types of the schema as they are, on every level that it uses. -/
theorem level_show {fuel : Nat} (atMost : fuel ≤ definitions.types.length + 1) :
    (definitions.level fuel).Show schema.SameAndFit schema :=
  .of_levels definitions.level
    (fun _ _ _ isStandard isType fuel => shows_of_standard intact isStandard isType fuel)
    (fun _ _ isStandard isType _ atMost below =>
      shows_of_ordinary intact legible account spelled unique isType isStandard atMost below)
    atMost

end Account

end Definitions

/-- The defaults of a schema that a document defines fit their types, if the document is
spelled. -/
theorem ofDocument_hasFittingDefaults {source : Text} {document : List Document.Definition}
    {isTrusted : Bool} (spelled : ∀ definition ∈ document, definition.IsSpelled)
    (defined : ofDocument source document isTrusted = .ok schema) : schema.HasFittingDefaults := by
  have intact := ofDocument_intact defined
  have legible := ofDocument_legible spelled defined
  obtain ⟨definitions, areSpelled, unique, account, directives⟩ := exists_account spelled defined
  have shows := Definitions.level_show intact legible account areSpelled unique le_rfl
  intro input isOwn
  obtain ⟨place, defined, isSpelled, given⟩ : ∃ place defined,
      Document.InputValueDefinition.IsSpelled defined ∧
        definitions.inputValue definitions.inputTypes place defined = .ok input := by
    rcases isOwn with ⟨type, mem, ordinary, inType⟩ | ⟨directive, mem, ordinary, inDirective⟩
    · obtain ⟨definition, definitionMem, -, makes⟩ :=
        account type mem (isStandardType_eq_false_iff.mp ordinary)
      exact Definitions.exists_of_inputs areSpelled definitionMem makes inType
    · rcases directives directive mem with isStandard | ⟨definition, isSpelled, given⟩
      · rw [isStandardDirective_of_standard isStandard] at ordinary
        cases ordinary
      · obtain ⟨arguments, inArguments, rest⟩ := bind_eq_ok_iff.mp given
        cases rest
        obtain ⟨argument, argumentMem, isInput⟩ :=
          exists_of_mem_forall₂ (Definitions.forall₂_of_arguments inArguments) inDirective
        exact ⟨_, argument, isSpelled.arguments _ (Named.mem_of_mem_ofList argumentMem), isInput⟩
  exact Definitions.fits_default (intact.hasSoundInputs legible) shows isSpelled given
    (intact.isSome_type?_of_isOwnInput isOwn)

end SchemaOrder.Schema
