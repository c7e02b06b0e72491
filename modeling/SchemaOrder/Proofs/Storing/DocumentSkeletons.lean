import SchemaOrder.Proofs.Sorting.SortedLegibility
import SchemaOrder.Proofs.Storing.Skeletons

/-!
# What a document keeps

A schema that is written as a document and read again has the same skeleton: what was written of
every type and every directive is what is made of it when it is read. The operations are kept with
one exception, which `rereadRoot` describes. Where all of them are served by types with the usual
names, a document does not say so, and a type with a usual name serves its operation when the
document is read, even if it did not before.
-/

namespace SchemaOrder.Schema

open Outcome

variable {schema : Schema} {definitions : Definitions}

/-- What is made of definitions put together by name is related to what they were written for, where
what is made of each of them is. -/
theorem forall₂_of_made {α β γ : Type} {tells : α → β → Prop} {makes : β → γ → Prop}
    {related : α → γ → Prop} {name : β → Text} {name' : α → Text} {things : List α}
    {defined : List β} {results : List γ} (told : List.Forall₂ tells things defined)
    (made : List.Forall₂ makes (Named.ofList name defined) results)
    (unique : (things.map name').Nodup)
    (names : ∀ thing read, tells thing read → name read = name' thing)
    (each : ∀ thing ∈ things, ∀ read result, tells thing read → makes read result →
      related thing result) : List.Forall₂ related things results := by
  have sameNames : defined.map name = things.map name' := map_eq_map_of_forall₂ told names
  rw [Named.ofList_of_nodup (sameNames ▸ unique)] at made
  exact forall₂_trans_of_mem told made each

/-- What is made of definitions put together by name looks like what they were written for, where
each of them is made into something that does. -/
theorem map_eq_map_of_made {α β γ σ : Type} {tells : α → β → Prop} {makes : β → γ → Prop}
    {name : β → Text} {name' : α → Text} {before : α → σ} {after : γ → σ} {things : List α}
    {defined : List β} {results : List γ} (told : List.Forall₂ tells things defined)
    (made : List.Forall₂ makes (Named.ofList name defined) results)
    (unique : (things.map name').Nodup)
    (names : ∀ thing read, tells thing read → name read = name' thing)
    (each : ∀ thing ∈ things, ∀ read result, tells thing read → makes read result →
      after result = before thing) : results.map after = things.map before :=
  map_eq_map_of_forall₂ (forall₂_of_made told made unique names each) fun _ _ same => same

/-- Arguments and input fields are made as they were written. -/
theorem inputSkeletons_of_made {inputs made : List InputValue}
    {defined : List Document.InputValueDefinition} {types : InputTypes SchemaFault}
    {place : TypePlace} {describes : InputValue → Option Text}
    (unique : (inputs.map InputValue.name).Nodup)
    (told : List.Forall₂ (fun input => schema.InputTells (describes input) input) inputs defined)
    (given : List.Forall₂ (fun definition value =>
        definitions.inputValue types place definition = .ok value)
      (Named.ofList Document.InputValueDefinition.name defined) made) :
    made.map InputValue.skeleton = inputs.map InputValue.skeleton := by
  refine map_eq_map_of_made told given unique (fun _ _ tells => tells.name) ?_
  intro input _ read value tells isMade
  obtain ⟨sameName, sameType⟩ := Definitions.name_of_inputValue isMade
  rw [InputValue.skeleton, sameName, sameType, tells.name, tells.type, InputValue.skeleton]

/-- Fields are made as they were written. -/
theorem fieldSkeletons_of_made {fields made : List Field} {defined : List Document.FieldDefinition}
    (unique : (fields.map Field.name).Nodup)
    (arguments : ∀ field ∈ fields, (field.arguments.map InputValue.name).Nodup)
    (told : List.Forall₂ schema.FieldTells fields defined)
    (given : List.Forall₂ (fun definition field => definitions.field definition = .ok field)
      (Named.ofList Document.FieldDefinition.name defined) made) :
    made.map Field.skeleton = fields.map Field.skeleton := by
  refine map_eq_map_of_made told given unique (fun _ _ tells => tells.name) ?_
  intro field mem read result tells isMade
  obtain ⟨_, inputs, _, -, given, -, -, rfl⟩ := Definitions.field_eq_ok isMade
  rw [Field.skeleton, Field.skeleton, tells.name, tells.type, inputSkeletons_of_made
    (arguments field mem) tells.arguments (Definitions.forall₂_of_arguments given)]

/-- A body is made as it was written, if the document extends no types. -/
theorem bodySkeleton_of_makes {definition : Document.TypeDefinition} {body made : Body}
    (plain : definitions.extensions = []) (unique : body.HasUniqueNames)
    (tells : BodyTells schema body definition.body) (makes : definitions.Makes definition made) :
    made.skeleton = body.skeleton := by
  have alone : definitions.nodes definition = [definition] := by
    simp [Definitions.nodes, plain]
  generalize isRead : definition.body = read at tells
  cases makes with
  | scalar specifiedBy isBody =>
      cases isBody.symm.trans isRead
      cases tells
      rfl
  | object isBody made | interface isBody made =>
      cases isBody.symm.trans isRead
      cases tells
      next all =>
        simp only [Definitions.fieldDefinitions, alone, List.flatMap_singleton, isBody] at made
        simp only [Body.skeleton, Definitions.interfaceNames, alone, List.flatMap_singleton,
          isBody, fieldSkeletons_of_made unique.1 unique.2 all made]
  | union isBody =>
      cases isBody.symm.trans isRead
      cases tells
      simp only [Body.skeleton, Definitions.memberNames, alone, List.flatMap_singleton, isBody]
  | enum isBody made =>
      cases isBody.symm.trans isRead
      cases tells with
      | enum all =>
          simp only [Definitions.valueDefinitions, alone, List.flatMap_singleton, isBody] at made
          refine congrArg BodySkeleton.enum
            (map_eq_map_of_made all made unique (fun _ _ tells => tells.name) ?_)
          intro value _ read result tells isMade
          obtain ⟨deprecation, -, rest⟩ := bind_eq_ok_iff.mp isMade
          cases rest
          exact tells.name
  | inputObject oneOf isBody made =>
      cases isBody.symm.trans isRead
      cases tells with
      | inputObject oneOf all =>
          simp only [Definitions.inputDefinitions, alone, List.flatMap_singleton, isBody] at made
          exact congrArg BodySkeleton.inputObject (inputSkeletons_of_made unique all made)

/-- A type is made as it was written, if the document extends no types. -/
theorem typeSkeleton_of_made {definition : Document.TypeDefinition} {type made : NamedType}
    (plain : definitions.extensions = []) (ordinary : Standard.type? type.name = none)
    (unique : type.body.HasUniqueNames) (tells : schema.TypeTells type definition)
    (given : definitions.typeDraft definition = .ok (.ofType made)) :
    made.skeleton = type.skeleton := by
  obtain ⟨sameName, makes⟩ := Definitions.makes_of_typeDraft given (tells.name ▸ ordinary)
  rw [NamedType.skeleton, NamedType.skeleton, sameName, tells.name,
    bodySkeleton_of_makes plain unique tells.body makes]

/-- A directive is made as it was written. -/
theorem directiveSkeleton_of_made {definition : Document.DirectiveDefinition}
    {directive made : Directive} (unique : (directive.arguments.map InputValue.name).Nodup)
    (tells : schema.DirectiveTells directive definition)
    (given : definitions.directive definition = .ok made) :
    made.skeleton = directive.skeleton := by
  obtain ⟨inputs, areInputs, rest⟩ := bind_eq_ok_iff.mp given
  cases rest
  rw [Directive.skeleton, Directive.skeleton, tells.name, tells.isRepeatable, tells.locations,
    inputSkeletons_of_made unique tells.arguments (Definitions.forall₂_of_arguments areInputs)]

/-- The parts of a document that was written of a schema: its types, its directives and maybe the
schema itself, without extensions. -/
structure PartsTell (schema : Schema) (parts : List WrittenPart) (read : DocumentParts) : Prop where
  types : List.Forall₂ schema.TypeTells
    (parts.filterMap fun | .type type => some type | _ => none) read.types
  directives : List.Forall₂ schema.DirectiveTells
    (parts.filterMap fun | .directive directive => some directive | _ => none) read.directives
  schemas : List.Forall₂ (fun _ => schema.SchemaTells)
    (parts.filterMap fun | .schema => some () | _ => none) read.schemas
  typeExtensions : read.typeExtensions = []
  schemaExtensions : read.schemaExtensions = []

/-- The parts of a document tell what was written. -/
theorem partsTell_of_tells {parts : List WrittenPart} {document : List Document.Definition}
    (all : List.Forall₂ (WrittenPart.Tells schema) parts document) :
    PartsTell schema parts (.ofDefinitions document) := by
  induction all with
  | nil => exact ⟨.nil, .nil, .nil, rfl, rfl⟩
  | cons head _ inductionHypothesis =>
      obtain ⟨types, directives, schemas, typeExtensions, schemaExtensions⟩ := inductionHypothesis
      cases head with
      | schema tells =>
          exact ⟨types, directives, .cons tells schemas, typeExtensions, schemaExtensions⟩
      | directive tells =>
          exact ⟨types, .cons tells directives, schemas, typeExtensions, schemaExtensions⟩
      | type tells =>
          exact ⟨.cons tells types, directives, schemas, typeExtensions, schemaExtensions⟩

/-- Whether a document of a schema says nothing of the schema itself. -/
def saysNoRoots (schema : Schema) : Bool :=
  schema.description.isNone && schema.hasUsualRoots

/-- The usual types serve the operations of a schema if no other type serves one. -/
theorem hasUsualRoots_iff : schema.hasUsualRoots = true ↔
    ∀ entry ∈ schema.roots.zip usualRoots, ∀ name, entry.1 = some name → name = entry.2.2 := by
  refine List.all_eq_true.trans (forall₂_congr fun entry _ => ?_)
  obtain ⟨root, word, usual⟩ := entry
  cases root <;> simp

/-- Where a document of a schema says nothing of the schema itself, all operations that are served
are served by the types with the usual names. -/
theorem usual_of_saysNoRoots (silent : schema.saysNoRoots = true)
    {entry : Option Text × Text × Text} (mem : entry ∈ schema.roots.zip usualRoots) :
    ∀ name, entry.1 = some name → name = entry.2.2 :=
  hasUsualRoots_iff.mp (Bool.and_eq_true_iff.mp silent).2 entry mem

/-- The type that serves an operation when a document of a schema is read: where the document says
nothing of the operations it is the type with the usual name, if there is one. -/
def rereadRoot (schema : Schema) (usual : Text) (root : Option Text) : Option Text :=
  if schema.saysNoRoots && schema.userTypes.any fun type => type.name = usual then some usual
  else root

/-- The types that serve operations when a document of a schema is read. -/
def rereadRoots (schema : Schema) : List (Option Text) :=
  [schema.rereadRoot "Query" schema.query, schema.rereadRoot "Mutation" schema.mutation,
    schema.rereadRoot "Subscription" schema.subscription]

/-- The operations that a written schema names are served as before. -/
theorem root_of_schemaTells {parts : DocumentParts} {read : Document.SchemaDefinition}
    (isSchema : parts.schemas = [read]) (plain : parts.schemaExtensions = [])
    (tells : schema.SchemaTells read) :
    parts.root .query "Query" = schema.query ∧
      parts.root .mutation "Mutation" = schema.mutation ∧
      parts.root .subscription "Subscription" = schema.subscription := by
  have operations : parts.operations = schema.operations := by
    simp [DocumentParts.operations, isSchema, plain, tells.operations]
  unfold DocumentParts.root
  rw [isSchema, operations]
  obtain ⟨description, query, mutation, subscription⟩ := schema
  cases query <;> cases mutation <;> cases subscription <;> exact ⟨rfl, rfl, rfl⟩

/-- Where a document says nothing of the operations, an operation of an intact schema is served by
the type with the usual name, if there is one. -/
theorem Intact.root_of_noSchema (intact : schema.Intact) {parts : DocumentParts}
    (noSchema : parts.schemas = []) (plain : parts.schemaExtensions = [])
    (types : List.Forall₂ schema.TypeTells schema.userTypes parts.types)
    (silent : schema.saysNoRoots = true) {operation : Document.Operation} {usual : Text}
    {root : Option Text} (isRoot : root ∈ schema.roots) (ordinary : isStandardType usual = false)
    (isUsual : ∀ name, root = some name → name = usual) :
    parts.root operation usual = schema.rereadRoot usual root := by
  have sameTest : (parts.types.any fun type => type.name = usual) =
      schema.userTypes.any fun type => type.name = usual := by
    have sameNames := map_eq_map_of_forall₂ types fun _ _ tells => tells.name
    have anyName : ∀ {α : Type} (name : α → Text) (things : List α),
        (things.any fun thing => name thing = usual) = decide (usual ∈ things.map name) := by
      intro α name things
      rw [Bool.eq_iff_iff]
      simp
    rw [anyName, anyName, sameNames]
  have nothing : parts.operations = [] := by simp [DocumentParts.operations, noSchema, plain]
  unfold DocumentParts.root rereadRoot
  rw [noSchema, nothing, silent, sameTest]
  cases found : schema.userTypes.any fun type => type.name = usual with
  | true => rfl
  | false =>
      cases root with
      | none => rfl
      | some name =>
          obtain rfl := isUsual name rfl
          have inIndex := intact.closed.roots name isRoot
          rw [intact.typeNames_eq] at inIndex
          obtain ⟨type, mem, rfl⟩ := List.mem_map.mp inIndex
          have isUser : type ∈ schema.userTypes := by
            rw [← intact.userTypes_eq, intact.index]
            refine List.mem_filterMap.mpr ⟨.defined type, List.mem_filter.mpr ⟨?_, ?_⟩, rfl⟩
            · exact List.mem_map_of_mem mem
            · simpa [Entry.name] using ordinary
          exact absurd (decide_eq_true rfl) (List.any_eq_false.mp found type isUser)

/-- The types that are written of an intact schema are those that a user has named. -/
theorem Intact.writtenParts_types (intact : schema.Intact) :
    schema.writtenParts.filterMap (fun | .type type => some type | _ => none) =
      schema.userTypes := by
  rw [writtenParts, intact.userTypes_eq]
  split <;> simp [List.filterMap_append, List.filterMap_map]

/-- The directives that are written of a schema are those that a user has named. -/
theorem writtenParts_directives (schema : Schema) :
    schema.writtenParts.filterMap (fun | .directive directive => some directive | _ => none) =
      schema.userDirectives := by
  rw [writtenParts, userDirectives]
  split <;> simp [List.filterMap_append, List.filterMap_map]

/-- The schema itself is written, once, unless there is nothing to say of it. -/
theorem writtenParts_schema (schema : Schema) :
    schema.writtenParts.filterMap (fun | .schema => some () | _ => none) =
      if schema.saysNoRoots then [] else [()] := by
  unfold writtenParts saysNoRoots
  split <;> simp [List.filterMap_append, List.filterMap_map]

/-- The types that a user of an intact schema has named have different names. -/
theorem Intact.userTypes_nodup (intact : schema.Intact) :
    (schema.userTypes.map NamedType.name).Nodup := by
  have unique := intact.unique
  rw [intact.typeNames_eq, ← intact.definedTypes_eq] at unique
  exact unique.sublist (List.filter_sublist.map _)

/-- What is added to listed types that have the names of those a user has named is named by no
user. -/
theorem Intact.userTypes_of_recollects {reread : Schema} (intact : reread.Intact)
    {listed : List NamedType} (recollects : Draft.Recollects listed reread.types)
    (sameNames : listed.map NamedType.name = schema.userTypes.map NamedType.name) :
    reread.userTypes = listed := by
  have allUser := forall_of_map_eq_map
    (fun name => (!isIntrospectionType name && !isStandardScalar name) = true) sameNames
      fun type mem => (List.mem_filter.mp mem).2
  rw [userTypes, intact.definedTypes_eq, filter_user_of_recollects recollects,
    List.filter_eq_self.mpr allUser]

/-- What is added to directives that have the names of those a user has named is named by no
user. -/
theorem userDirectives_of_missing {reread : Schema} {directives : List Directive}
    (all : reread.directives = directives ++ missingDirectives directives)
    (sameNames : directives.map Directive.name = schema.userDirectives.map Directive.name) :
    reread.userDirectives = directives := by
  have allUser := forall_of_map_eq_map (fun name => (!isStandardDirective name) = true) sameNames
    fun directive mem => (List.mem_filter.mp mem).2
  have noneMissing : ∀ directive ∈ missingDirectives directives,
      ¬ (!isStandardDirective directive.name) = true := by
    intro directive mem
    rw [isStandardDirective_of_missing mem]
    nofun
  rw [userDirectives, all, List.filter_append, List.filter_eq_self.mpr allUser,
    List.filter_eq_nil_iff.mpr noneMissing, List.append_nil]

/-- The operations are served as `rereadRoot` says. -/
theorem PartsTell.roots (intact : schema.Intact) {parts : DocumentParts}
    (told : PartsTell schema schema.writtenParts parts) :
    parts.root .query "Query" = schema.rereadRoot "Query" schema.query ∧
      parts.root .mutation "Mutation" = schema.rereadRoot "Mutation" schema.mutation ∧
      parts.root .subscription "Subscription" =
        schema.rereadRoot "Subscription" schema.subscription := by
  have types := intact.writtenParts_types ▸ told.types
  have schemas := schema.writtenParts_schema ▸ told.schemas
  cases silent : schema.saysNoRoots with
  | true =>
      rw [silent, if_pos rfl] at schemas
      have noSchema := List.forall₂_nil_left_iff.mp schemas
      have isRoot : ∀ word usual root, (root, word, usual) ∈ schema.roots.zip usualRoots →
          isStandardType usual = false →
            ∀ operation, parts.root operation usual = schema.rereadRoot usual root := by
        intro word usual root mem ordinary operation
        exact intact.root_of_noSchema noSchema told.schemaExtensions types silent
          (List.of_mem_zip mem).1 ordinary (usual_of_saysNoRoots silent mem)
      exact ⟨isRoot "query" "Query" schema.query (by simp [Schema.roots, usualRoots]) (by decide) _,
        isRoot "mutation" "Mutation" schema.mutation (by simp [Schema.roots, usualRoots])
          (by decide) _,
        isRoot "subscription" "Subscription" schema.subscription
          (by simp [Schema.roots, usualRoots]) (by decide) _⟩
  | false =>
      rw [silent, if_neg Bool.false_ne_true] at schemas
      obtain ⟨read, rest, tells, none, isSchema⟩ := List.forall₂_cons_left_iff.mp schemas
      rw [List.forall₂_nil_left_iff.mp none] at isSchema
      simpa only [rereadRoot, silent, Bool.false_and, Bool.false_eq_true, if_false] using
        root_of_schemaTells isSchema told.schemaExtensions tells

/-- A document of a schema says how the schema is described. -/
theorem PartsTell.description {parts : DocumentParts}
    (told : PartsTell schema schema.writtenParts parts) :
    parts.schemas.getLast?.bind Document.SchemaDefinition.description = schema.description := by
  have schemas := schema.writtenParts_schema ▸ told.schemas
  cases silent : schema.saysNoRoots with
  | true =>
      rw [silent, if_pos rfl] at schemas
      rw [List.forall₂_nil_left_iff.mp schemas]
      exact (Option.isNone_iff_eq_none.mp (Bool.and_eq_true_iff.mp silent).1).symm
  | false =>
      rw [silent, if_neg Bool.false_ne_true] at schemas
      obtain ⟨read, rest, tells, none, isSchema⟩ := List.forall₂_cons_left_iff.mp schemas
      rw [List.forall₂_nil_left_iff.mp none] at isSchema
      rw [isSchema]
      exact tells.description

/-- A schema that is made of definitions that tell what was written of another one: its types and
directives, the standard ones left aside, are made of them one by one. -/
structure MadeAsTold (schema reread : Schema) (definitions : Definitions)
    (read : List Document.DirectiveDefinition) : Prop where
  plain : definitions.extensions = []
  types : List.Forall₂ schema.TypeTells schema.userTypes definitions.types
  madeTypes : List.Forall₂ (fun definition type =>
    definitions.typeDraft definition = .ok (.ofType type)) definitions.types reread.userTypes
  directives : List.Forall₂ schema.DirectiveTells schema.userDirectives read
  madeDirectives : List.Forall₂ (fun definition directive =>
    definitions.directive definition = .ok directive) read reread.userDirectives
  description : reread.description = schema.description
  roots : reread.roots = schema.rereadRoots

/-- The schema that the document of a schema defines is made as it was told. -/
theorem madeAsTold_of_tells (intact : schema.Intact) {source : Text}
    {document : List Document.Definition} {isTrusted : Bool} {reread : Schema}
    (told : List.Forall₂ (WrittenPart.Tells schema) schema.writtenParts document)
    (defined : ofDocument source document isTrusted = .ok reread) :
    ∃ definitions read, MadeAsTold schema reread definitions read := by
  obtain ⟨listed, directives, made, recollects, directed, allDirectives, isDescription, isQuery,
    isMutation, isSubscription⟩ := ofDocument_eq_ok defined rfl rfl
  have parts := partsTell_of_tells told
  have toldTypes := intact.writtenParts_types ▸ parts.types
  have toldDirectives := schema.writtenParts_directives ▸ parts.directives
  have typeNames := map_eq_map_of_forall₂ toldTypes fun _ _ tells => tells.name
  rw [Named.ofList_of_nodup (typeNames ▸ intact.userTypes_nodup)] at made directed
  have listedNames : listed.map NamedType.name = schema.userTypes.map NamedType.name := by
    refine (map_eq_map_of_forall₂ made fun definition type given => ?_).trans typeNames
    exact Definitions.name_of_typeDraft given
  have directiveNames : directives.map Directive.name =
      schema.userDirectives.map Directive.name := by
    refine (map_eq_map_of_forall₂ directed fun definition directive given => ?_).trans
      (map_eq_map_of_forall₂ toldDirectives fun _ _ tells => tells.name)
    obtain ⟨inputs, -, rest⟩ := bind_eq_ok_iff.mp given
    cases rest
    rfl
  have areTypes := (ofDocument_intact defined).userTypes_of_recollects recollects listedNames
  have areDirectives := userDirectives_of_missing allDirectives directiveNames
  obtain ⟨sameQuery, sameMutation, sameSubscription⟩ := PartsTell.roots intact parts
  refine ⟨⟨source, (DocumentParts.ofDefinitions document).types, _⟩, _, parts.typeExtensions,
    toldTypes, areTypes ▸ made, toldDirectives, areDirectives ▸ directed,
    isDescription.trans parts.description, ?_⟩
  rw [roots, rereadRoots, isQuery, isMutation, isSubscription, sameQuery, sameMutation,
    sameSubscription]

/-- The document of a schema makes the skeletons of the schema. -/
theorem ofDocument_of_tells (intact : schema.Intact) (legible : schema.Legible) {source : Text}
    {document : List Document.Definition} {isTrusted : Bool} {reread : Schema}
    (told : List.Forall₂ (WrittenPart.Tells schema) schema.writtenParts document)
    (defined : ofDocument source document isTrusted = .ok reread) :
    reread.userSkeletons = schema.userSkeletons ∧ reread.roots = schema.rereadRoots := by
  obtain ⟨definitions, read, made⟩ := madeAsTold_of_tells intact told defined
  refine ⟨Prod.ext ?_ ?_, made.roots⟩
  · refine map_eq_map_of_forall₂ (forall₂_trans_of_mem made.types made.madeTypes ?_)
      fun _ _ same => same
    intro type mem definition result tells isMade
    have inTypes : type ∈ schema.types := intact.definedTypes_eq ▸ (List.mem_filter.mp mem).1
    have notStandard := ordinary_of_userType mem
    obtain ⟨-, -, unique⟩ := legible.types type inTypes notStandard
    exact typeSkeleton_of_made made.plain (isStandardType_eq_false_iff.mp notStandard) unique tells
      isMade
  · refine map_eq_map_of_forall₂ (forall₂_trans_of_mem made.directives made.madeDirectives ?_)
      fun _ _ same => same
    intro directive mem definition result tells isMade
    obtain ⟨inDirectives, -⟩ := List.mem_filter.mp mem
    exact directiveSkeleton_of_made (legible.arguments directive inDirectives) tells isMade

/-- A type has the usual name of an operation that it does not serve, and a document of the schema
does not say so. -/
def HasIdleRoot (schema : Schema) : Prop :=
  schema.saysNoRoots = true ∧ ∃ entry ∈ schema.roots.zip usualRoots, entry.1 = none ∧
    ∃ type ∈ schema.userTypes, type.name = entry.2.2

instance (schema : Schema) : Decidable schema.HasIdleRoot :=
  inferInstanceAs (Decidable (_ ∧ _))

/-- An operation is served as before, unless a document does not say that nothing serves it. -/
theorem rereadRoot_eq_self_iff {usual : Text} {root : Option Text}
    (isUsual : schema.saysNoRoots = true → ∀ name, root = some name → name = usual) :
    schema.rereadRoot usual root = root ↔
      ¬ (schema.saysNoRoots = true ∧ root = none ∧
        ∃ type ∈ schema.userTypes, type.name = usual) := by
  unfold rereadRoot
  cases silent : schema.saysNoRoots with
  | false => simp
  | true =>
      cases root with
      | none => simp
      | some name => simp [isUsual silent name rfl]

/-- All operations are served as before exactly if there is no type that one of them is taken to be
served by only because of its name. -/
theorem rereadRoots_eq_roots_iff (schema : Schema) :
    schema.rereadRoots = schema.roots ↔ ¬ schema.HasIdleRoot := by
  have each : ∀ entry ∈ schema.roots.zip usualRoots,
      schema.rereadRoot entry.2.2 entry.1 = entry.1 ↔ ¬ (schema.saysNoRoots = true ∧
        entry.1 = none ∧ ∃ type ∈ schema.userTypes, type.name = entry.2.2) :=
    fun entry mem => rereadRoot_eq_self_iff fun silent => usual_of_saysNoRoots silent mem
  have roots : schema.rereadRoots = schema.roots ↔ ∀ entry ∈ schema.roots.zip usualRoots,
      schema.rereadRoot entry.2.2 entry.1 = entry.1 := by
    simp [rereadRoots, Schema.roots, usualRoots]
  rw [roots, HasIdleRoot]
  constructor
  · rintro all ⟨silent, entry, mem, isNone, isThere⟩
    exact (each entry mem).mp (all entry mem) ⟨silent, isNone, isThere⟩
  · intro none entry mem
    refine (each entry mem).mpr ?_
    rintro ⟨silent, isNone, isThere⟩
    exact none ⟨silent, entry, mem, isNone, isThere⟩

/-- The document of an untampered schema is read as a schema with its skeletons. -/
theorem reread_of_readDocument {text : Text} {isTrusted : Bool} {schema reread : Schema}
    (untampered : Untampered schema) (written : schema.documentText = .ok text)
    (given : Source.readDocument text isTrusted = .ok reread) :
    reread.userSkeletons = schema.userSkeletons ∧ reread.roots = schema.rereadRoots := by
  obtain ⟨document, parsed, defined⟩ := Source.readDocument_eq_ok given
  exact ofDocument_of_tells untampered.intact untampered.legible
    (parse_toDocument untampered.isReadable (mapError_eq_ok_iff.mp written) parsed) defined

/-- A document that names no file is read for what it is. -/
theorem reread_of_documentText {volume : Volume} {text : Text} {isTrusted : Bool}
    {schema reread : Schema} (untampered : Untampered schema)
    (written : schema.documentText = .ok text) (noFile : ∀ content, volume.read text ≠ .ok content)
    (given : (Source.document text isTrusted).read volume = .ok reread) :
    reread.userSkeletons = schema.userSkeletons ∧ reread.roots = schema.rereadRoots := by
  obtain ⟨source, isSource, isRead⟩ := bind_eq_ok_iff.mp given
  rw [Source.pathOrText_of_noFile noFile] at isSource
  cases isSource
  exact reread_of_readDocument untampered written isRead

/-- A schema that came about without tampering, written as a document and read again, has the same
types and directives as before, standard ones left aside, in the same order and with the same
parts. Its operations are served by the same types exactly if no type has the usual name of an
operation that it does not serve, or the document says which types serve the operations. Hence two
such schemas whose documents are the same, or whose printed forms are, which the fingerprint is
taken of, have the same types and directives, and the same operations but for this exception. -/
theorem document_keeps_skeletons {volume : Volume} {text : Text} {isTrusted : Bool}
    {schema reread : Schema} (untampered : Untampered schema)
    (written : schema.documentText = .ok text) (noFile : ∀ content, volume.read text ≠ .ok content)
    (given : (Source.document text isTrusted).read volume = .ok reread) :
    reread.userTypes.map NamedType.skeleton = schema.userTypes.map NamedType.skeleton ∧
      reread.userDirectives.map Directive.skeleton =
        schema.userDirectives.map Directive.skeleton ∧
      reread.roots = schema.rereadRoots ∧
      (reread.roots = schema.roots ↔ ¬ schema.HasIdleRoot) ∧
      ∀ other, Untampered other →
        other.documentText = schema.documentText ∨ other.print = schema.print →
          other.userSkeletons = schema.userSkeletons ∧ other.rereadRoots = schema.rereadRoots := by
  obtain ⟨sameSkeletons, sameRoots⟩ := reread_of_documentText untampered written noFile given
  refine ⟨congrArg Prod.fst sameSkeletons, congrArg Prod.snd sameSkeletons, sameRoots, ?_, ?_⟩
  · rw [sameRoots, rereadRoots_eq_roots_iff]
  · intro other otherUntampered same
    have otherWritten : other.documentText = .ok text := by
      rw [← written]
      rcases same with sameText | samePrint
      · exact sameText
      · unfold documentText toDocument
        rw [samePrint]
    obtain ⟨otherSkeletons, otherRoots⟩ :=
      reread_of_documentText otherUntampered otherWritten noFile given
    exact ⟨otherSkeletons.symm.trans sameSkeletons, otherRoots.symm.trans sameRoots⟩

/-- The document of a small schema is read again, and makes the same types and operations. -/
theorem document_keeps_starterDocument :
    ∃ schema text reread, (Source.document starterDocument false).read noFiles = .ok schema ∧
      schema.documentText = .ok text ∧ (∀ content, noFiles.read text ≠ .ok content) ∧
      (Source.document text false).read noFiles = .ok reread ∧
      reread.userTypes.map NamedType.skeleton = schema.userTypes.map NamedType.skeleton ∧
      reread.roots = schema.roots := by
  have succeeds : (do
      let schema ← (Source.document starterDocument false).read noFiles
      let text ← schema.documentText
      let _ ← (Source.document text false).read noFiles
      return decide schema.HasIdleRoot : Except Fault Bool).toOption = some false := by
    decide +kernel
  obtain ⟨schema, isRead, rest⟩ := bind_eq_ok_iff.mp (eq_ok_of_toOption succeeds)
  obtain ⟨text, written, rest⟩ := bind_eq_ok_iff.mp rest
  obtain ⟨reread, isReread, notIdle⟩ := bind_eq_ok_iff.mp rest
  obtain ⟨sameTypes, -, -, sameRoots, -⟩ :=
    document_keeps_skeletons (.read isRead) written (noFiles_read text) isReread
  exact ⟨schema, text, reread, isRead, written, noFiles_read text, isReread, sameTypes,
    sameRoots.mpr (of_decide_eq_false (pure_eq_ok_iff.mp notIdle))⟩

/-- A document in which a type has the usual name of an operation that nothing serves. -/
def idleDocument : Text :=
  "schema { query: Query } type Query { a: Int } type Mutation { b: Int }"

/-- Written and read again, the type with the usual name serves the operation. -/
theorem document_serves_idleDocument :
    ∃ schema text reread, (Source.document idleDocument false).read noFiles = .ok schema ∧
      schema.documentText = .ok text ∧ (∀ content, noFiles.read text ≠ .ok content) ∧
      (Source.document text false).read noFiles = .ok reread ∧
      schema.roots = [some (Text.ofString "Query"), none, none] ∧
      reread.roots = [some (Text.ofString "Query"), some (Text.ofString "Mutation"), none] := by
  have succeeds : (do
      let schema ← (Source.document idleDocument false).read noFiles
      let text ← schema.documentText
      let reread ← (Source.document text false).read noFiles
      return (schema.roots, reread.roots) : Except Fault _).toOption =
        some ([some (Text.ofString "Query"), none, none],
          [some (Text.ofString "Query"), some (Text.ofString "Mutation"), none]) := by
    decide +kernel
  obtain ⟨schema, isRead, rest⟩ := bind_eq_ok_iff.mp (eq_ok_of_toOption succeeds)
  obtain ⟨text, written, rest⟩ := bind_eq_ok_iff.mp rest
  obtain ⟨reread, isReread, areRoots⟩ := bind_eq_ok_iff.mp rest
  obtain ⟨isBefore, isAfter⟩ := Prod.mk.inj (pure_eq_ok_iff.mp areRoots)
  exact ⟨schema, text, reread, isRead, written, noFiles_read text, isReread, isBefore, isAfter⟩

end SchemaOrder.Schema
