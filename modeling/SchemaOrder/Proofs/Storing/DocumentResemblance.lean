import SchemaOrder.Proofs.Storing.DocumentSkeletons
import SchemaOrder.Proofs.Storing.WritableDefaults

/-!
# What a document says

A faithful schema that is written as a document and read again resembles itself: not only its
skeleton, but also its descriptions, its deprecations and its defaults are what the document says.
-/

namespace SchemaOrder.Schema

open Outcome
open Document (Application deprecationApplied)

variable {schema : Schema} {definitions : Definitions}

namespace Definitions

section Applications

/-- An argument that is given a text has this text. -/
theorem argumentValue_of_text {argument : InputValue} {content : Text}
    (isText : Coercion.coerce standardInputTypes (.text content false) argument.type =
      .ok (some (.text content))) {directive : Document.Directive}
    (given : directive.arguments.map (fun argument => (argument.name, argument.value)) =
      [(argument.name, .text content false)]) :
    definitions.argumentValue argument directive = .ok (some (.text content)) := by
  obtain ⟨single, areArguments, isArgument⟩ := List.map_eq_singleton_iff.mp given
  obtain ⟨isName, isValue⟩ := Prod.mk.inj isArgument
  have found : (directive.arguments.reverse.find? fun given => given.name = argument.name) =
      some single := by
    simp [areArguments, isName]
  rw [argumentValue, found]
  simp only [isValue, isText]
  rfl

/-- A standard directive with one argument says the text that the argument has. -/
theorem appliedText_of_argumentValue {standard : Directive} {argument : InputValue}
    (isOnly : standard.arguments = [argument]) {name : Text} (isArgument : argument.name = name)
    {directive : Document.Directive} (isName : directive.name = standard.name) {content : Text}
    (isValue : definitions.argumentValue argument directive = .ok (some (.text content))) :
    definitions.appliedText standard name [directive] = .ok (some content) := by
  subst isArgument
  have values : definitions.appliedArguments standard [directive] =
      .ok (some [(argument.name, .text content)]) := by
    simp only [appliedArguments, List.find?_cons, isName, decide_true, isOnly, List.mapM_cons,
      List.mapM_nil, isValue]
    rfl
  rw [appliedText, values]
  simp only [bind, Except.bind, Named.find?, List.find?_cons, decide_true]
  rfl

/-- A deprecation is read as it was written. -/
theorem deprecation_of_applied {reason : Option Text} {directives : List Document.Directive}
    (applied : List.Forall₂ Application.Holds (deprecationApplied reason).toList directives) :
    definitions.deprecation directives = .ok reason := by
  cases reason with
  | none =>
      cases applied
      rfl
  | some reason =>
      obtain ⟨directive, others, ⟨isName, given⟩, none, rfl⟩ :=
        List.forall₂_cons_left_iff.mp applied
      cases none
      have isStandard : directive.name = Standard.deprecatedDirective.name := isName
      refine appliedText_of_argumentValue rfl rfl isStandard ?_
      dsimp only at given
      by_cases isDefault : reason = defaultDeprecation
      · subst isDefault
        rw [if_pos rfl] at given
        rw [argumentValue, List.map_eq_nil_iff.mp given]
        rfl
      · rw [if_neg isDefault] at given
        exact argumentValue_of_text rfl given

/-- Where a scalar is said to be described is read as it was written. -/
theorem specifiedBy_of_applied {specifiedBy : Option Text} {directives : List Document.Directive}
    (applied : List.Forall₂ Application.Holds (bodyApplied (.scalar specifiedBy)).toList
      directives) :
    definitions.appliedText Standard.specifiedByDirective "url" directives = .ok specifiedBy := by
  cases specifiedBy with
  | none =>
      cases applied
      rfl
  | some address =>
      obtain ⟨directive, others, ⟨isName, given⟩, none, rfl⟩ :=
        List.forall₂_cons_left_iff.mp applied
      cases none
      have isStandard : directive.name = Standard.specifiedByDirective.name := isName
      refine appliedText_of_argumentValue rfl rfl isStandard ?_
      exact argumentValue_of_text rfl given

/-- Whether an input object takes exactly one field is read as it was written. -/
theorem isOneOf_of_applied {fields : List InputValue} {oneOf : Json}
    {definition : Document.TypeDefinition}
    (applied : List.Forall₂ Application.Holds (bodyApplied (.inputObject fields oneOf)).toList
      definition.directives) : definitions.isOneOf definition = .ok !oneOf.isFalsy := by
  simp only [bodyApplied] at applied
  unfold isOneOf appliedArguments
  cases falsy : oneOf.isFalsy with
  | true =>
      rw [falsy, if_pos rfl] at applied
      rw [List.forall₂_nil_left_iff.mp applied]
      rfl
  | false =>
      rw [falsy, if_neg Bool.false_ne_true] at applied
      obtain ⟨directive, others, ⟨isName, -⟩, none, areDirectives⟩ :=
        List.forall₂_cons_left_iff.mp applied
      have isStandard : directive.name = Standard.oneOfDirective.name := isName
      rw [areDirectives, List.find?_cons, decide_eq_true isStandard]
      rfl

end Applications

section Levels

variable (intact : schema.Intact) (legible : schema.Legible)
  (plain : definitions.extensions = [])
  (told : List.Forall₂ schema.TypeTells schema.userTypes definitions.types)
include intact legible plain told

/-- What coercion sees of the types of a document that was written of a schema are the types of the
schema. -/
theorem level_show_of_told (fuel : Nat) : (definitions.level fuel).Show SameFields schema := by
  intro name type isType
  cases isStandard : Standard.type? name with
  | some standard => exact shows_of_standard intact isStandard isType fuel
  | none =>
      have ordinary := isStandardType_eq_false_iff.mpr isStandard
      have typeMem := intact.mem_userTypes isType ordinary
      obtain ⟨mem, rfl⟩ := intact.type?_eq_some_iff.mp isType
      obtain ⟨-, -, uniqueParts⟩ := legible.types type mem ordinary
      obtain ⟨definition, definitionMem, tells⟩ := exists_of_mem_forall₂ told.flip typeMem
      have sameNames : definitions.types.map Document.TypeDefinition.name =
          schema.userTypes.map NamedType.name :=
        map_eq_map_of_forall₂ told fun _ _ tells => tells.name
      have found : Named.find? Document.TypeDefinition.name type.name definitions.types =
          some definition :=
        (Named.find?_eq_some_iff (sameNames ▸ intact.userTypes_nodup)).mpr
          ⟨definitionMem, tells.name⟩
      have alone : definitions.nodes definition = [definition] := by simp [nodes, plain]
      have applied := tells.applied
      have bodies := tells.body
      unfold level inputShape
      simp only [isStandard, found]
      generalize type.body = body at bodies applied uniqueParts ⊢
      generalize isRead : definition.body = read at bodies ⊢
      cases bodies with
      | scalar specifiedBy => exact .scalar specifiedBy
      | object | interface | union => exact .output rfl
      | enum all =>
          have sameValues := map_eq_map_of_forall₂ all fun _ _ tells => tells.name
          refine .enum fun name => ?_
          simp only [enumValueNames, alone, List.flatMap_singleton, isRead, sameValues]
      | inputObject oneOf all =>
          dsimp only
          rw [isOneOf_of_applied applied]
          refine .inputObject rfl fun known isKnown => ?_
          cases fuel with
          | zero => cases isKnown
          | succ less =>
              have made := forall₂_of_definedInputFields (mapError_eq_ok_iff.mp isKnown)
              simp only [inputDefinitions, alone, List.flatMap_singleton, isRead] at made
              refine forall₂_of_made all made uniqueParts (fun _ _ tells => tells.name) ?_
              intro own _ read seen tells given
              obtain ⟨kind, default?, deprecation, -, coerced, -, -, rfl⟩ := inputValue_eq_ok given
              refine ⟨tells.name, tells.type, fun noDefault => ?_⟩
              rw [tells.default, writtenDefault, noDefault] at coerced
              cases coerced
              rfl

end Levels

end Definitions

section Made

variable (faithful : schema.IsFaithful) (shows : definitions.inputTypes.Show SameFields schema)
include faithful shows

/-- An argument or an input field is made as it was written, description and default and all. -/
theorem inputAgrees_of_made {place : TypePlace} {description : Option Text}
    {input made : InputValue} {definition : Document.InputValueDefinition}
    (isOwn : schema.IsOwnInput input) (tells : schema.InputTells description input definition)
    (given : definitions.inputValue definitions.inputTypes place definition = .ok made) :
    InputValue.Agrees .mirrored { input with description := description } made := by
  obtain ⟨kind, default?, deprecation, -, coerced, deprecated, -, rfl⟩ :=
    Definitions.inputValue_eq_ok given
  refine ⟨tells.name.symm, tells.type.symm, ?_, tells.description.symm, ?_⟩
  · rw [tells.default, tells.type] at coerced
    cases isDefault : input.default? with
    | none =>
        rw [writtenDefault, isDefault] at coerced
        cases coerced
        exact .none
    | some value =>
        obtain ⟨literal, isWritten, alike⟩ := faithful.exists_writtenDefault shows isOwn isDefault
        rw [isWritten] at coerced
        obtain ⟨read, rfl, isAlike⟩ := alike _ coerced
        exact .some isAlike
  · exact Except.ok.inj
      ((Definitions.deprecation_of_applied tells.deprecation).symm.trans deprecated)

/-- Arguments are made as they were written. -/
theorem argumentsAgree_of_made {arguments made : List InputValue}
    {defined : List Document.InputValueDefinition}
    (areOwn : ∀ argument ∈ arguments, schema.IsOwnInput argument)
    (unique : (arguments.map InputValue.name).Nodup)
    (told : List.Forall₂ (fun argument =>
      schema.InputTells (spokenDescription arguments argument) argument) arguments defined)
    (given : definitions.arguments defined = .ok made) :
    Arrangement.inOrder.Relates (InputValue.Agrees .mirrored) (spokenArguments arguments) made :=
  List.forall₂_map_left_iff.mpr <| forall₂_of_made told (Definitions.forall₂_of_arguments given)
    unique (fun _ _ tells => tells.name) fun argument mem _ _ tells isMade =>
      inputAgrees_of_made faithful shows (areOwn argument mem) tells isMade

/-- Fields are made as they were written. -/
theorem fieldsAgree_of_made {fields made : List Field} {defined : List Document.FieldDefinition}
    (areOwn : ∀ argument ∈ fields.flatMap Field.arguments, schema.IsOwnInput argument)
    (unique : (fields.map Field.name).Nodup)
    (arguments : ∀ field ∈ fields, (field.arguments.map InputValue.name).Nodup)
    (told : List.Forall₂ schema.FieldTells fields defined)
    (given : List.Forall₂ (fun definition field => definitions.field definition = .ok field)
      (Named.ofList Document.FieldDefinition.name defined) made) :
    Arrangement.inOrder.Relates (Field.Agrees .mirrored) (fields.map Field.spoken) made := by
  refine List.forall₂_map_left_iff.mpr
    (forall₂_of_made told given unique (fun _ _ tells => tells.name) ?_)
  intro field mem definition result tells isMade
  obtain ⟨_, inputs, deprecation, -, areArguments, deprecated, -, rfl⟩ :=
    Definitions.field_eq_ok isMade
  refine ⟨tells.name.symm, tells.type.symm, ?_, tells.description.symm, ?_⟩
  · refine argumentsAgree_of_made faithful shows (fun argument inField => ?_) (arguments field mem)
      tells.arguments areArguments
    exact areOwn argument (List.mem_flatMap.mpr ⟨field, mem, inField⟩)
  · exact Except.ok.inj
      ((Definitions.deprecation_of_applied tells.deprecation).symm.trans deprecated)

/-- A body is made as it was written, if the document extends no types. -/
theorem bodyAgrees_of_made {definition : Document.TypeDefinition} {body made : Body}
    (areOwn : ∀ input ∈ body.inputs, schema.IsOwnInput input)
    (plain : definitions.extensions = []) (unique : body.HasUniqueNames)
    (applied : List.Forall₂ Application.Holds (bodyApplied body).toList definition.directives)
    (tells : BodyTells schema body definition.body) (makes : definitions.Makes definition made) :
    body.spoken.Agrees .mirrored made := by
  have alone : definitions.nodes definition = [definition] := by
    simp [Definitions.nodes, plain]
  generalize isRead : definition.body = read at tells
  cases makes with
  | scalar specifiedBy isBody said =>
      cases isBody.symm.trans isRead
      cases tells
      obtain rfl := Except.ok.inj ((Definitions.specifiedBy_of_applied applied).symm.trans said)
      exact .scalar _
  | object isBody made | interface isBody made =>
      cases isBody.symm.trans isRead
      cases tells
      next all =>
        simp only [Definitions.fieldDefinitions, alone, List.flatMap_singleton, isBody] at made
        simp only [Definitions.interfaceNames, alone, List.flatMap_singleton, isBody]
        have fields := fieldsAgree_of_made faithful shows areOwn unique.1 unique.2 all made
        first
        | exact .object (Arrangement.Relates.inOrder_eq_iff_eq.mpr rfl) fields
        | exact .interface (Arrangement.Relates.inOrder_eq_iff_eq.mpr rfl) fields
  | union isBody =>
      cases isBody.symm.trans isRead
      cases tells
      simp only [Definitions.memberNames, alone, List.flatMap_singleton, isBody]
      exact .union (Arrangement.Relates.inOrder_eq_iff_eq.mpr rfl)
  | enum isBody made =>
      cases isBody.symm.trans isRead
      cases tells with
      | enum all =>
          simp only [Definitions.valueDefinitions, alone, List.flatMap_singleton, isBody] at made
          refine .enum (forall₂_of_made all made unique (fun _ _ tells => tells.name) ?_)
          intro value _ read result tells isMade
          obtain ⟨deprecation, deprecated, rest⟩ := bind_eq_ok_iff.mp isMade
          cases rest
          rw [Definitions.deprecation_of_applied tells.deprecation] at deprecated
          cases deprecated
          rw [tells.name, tells.description]
  | inputObject oneOf isBody made said =>
      cases isBody.symm.trans isRead
      cases tells with
      | inputObject flag all =>
          simp only [Definitions.inputDefinitions, alone, List.flatMap_singleton, isBody] at made
          obtain rfl := Except.ok.inj ((Definitions.isOneOf_of_applied applied).symm.trans said)
          refine @Body.Agrees.inputObject .mirrored _ _
            (forall₂_of_made all made unique (fun _ _ tells => tells.name) ?_) _
          intro field mem read result tells isMade
          exact inputAgrees_of_made faithful shows (areOwn field mem) tells isMade

/-- A type is made as it was written, if the document extends no types. -/
theorem typeResembles_of_made {definition : Document.TypeDefinition} {type made : NamedType}
    (plain : definitions.extensions = []) (mem : type ∈ schema.userTypes)
    (tells : schema.TypeTells type definition)
    (given : definitions.typeDraft definition = .ok (.ofType made)) : type.Resembles made := by
  have inTypes : type ∈ schema.types :=
    faithful.intact.definedTypes_eq ▸ (List.mem_filter.mp mem).1
  have notStandard := ordinary_of_userType mem
  have ordinary : Standard.type? definition.name = none :=
    tells.name ▸ isStandardType_eq_false_iff.mp notStandard
  obtain ⟨-, -, unique⟩ := faithful.legible.types type inTypes notStandard
  obtain ⟨sameName, makes⟩ := Definitions.makes_of_typeDraft given ordinary
  have bodies := bodyAgrees_of_made faithful shows
    (fun input inType => .inl ⟨type, inTypes, notStandard, inType⟩) plain unique tells.applied
    tells.body makes
  have spoken : type.spoken.Agrees .mirrored made := by
    refine ⟨tells.name.symm.trans sameName.symm, ?_, bodies, fun isIntrospection => ?_⟩
    · exact tells.description.symm.trans
        (Definitions.description_of_typeDraft given ordinary).symm
    · have isIntrospection : isIntrospectionType type.name = true := isIntrospection
      rw [isStandardType, isIntrospection, Bool.or_true] at notStandard
      cases notStandard
  simpa only [NamedType.Resembles, NamedType.spoken_spoken] using spoken.spoken

/-- A directive is made as it was written. -/
theorem directiveResembles_of_made {definition : Document.DirectiveDefinition}
    {directive made : Directive} (mem : directive ∈ schema.userDirectives)
    (tells : schema.DirectiveTells directive definition)
    (given : definitions.directive definition = .ok made) : directive.Resembles made := by
  obtain ⟨inDirectives, ordinary⟩ := List.mem_filter.mp mem
  obtain ⟨inputs, areInputs, rest⟩ := bind_eq_ok_iff.mp given
  cases rest
  have arguments := argumentsAgree_of_made faithful shows
    (fun argument inDirective => .inr ⟨directive, inDirectives, by simpa using ordinary,
      inDirective⟩) (faithful.legible.arguments directive inDirectives) tells.arguments areInputs
  have spoken : directive.spoken.Agrees .mirrored ⟨definition.name, definition.description, inputs,
      definition.isRepeatable, definition.locations, none⟩ :=
    ⟨tells.name.symm, tells.description.symm, arguments, tells.isRepeatable.symm,
      Arrangement.Relates.inOrder_eq_iff_eq.mpr tells.locations.symm, tells.deprecation⟩
  simpa only [Directive.Resembles, Directive.spoken_spoken] using spoken.spoken

end Made

/-- A document that says nothing of a schema itself is read as a schema of which nothing has to be
said. -/
theorem saysNoRoots_of_reread {reread : Schema} (silent : schema.saysNoRoots = true)
    (sameDescription : reread.description = schema.description)
    (areRoots : reread.roots = schema.rereadRoots) : reread.saysNoRoots = true := by
  have keepsUsual : ∀ {root : Option Text} {word usual : Text},
      (root, word, usual) ∈ schema.roots.zip usualRoots →
        ∀ name, schema.rereadRoot usual root = some name → name = usual := by
    intro root word usual mem name isRoot
    unfold rereadRoot at isRoot
    split at isRoot
    · exact (Option.some.inj isRoot).symm
    · exact usual_of_saysNoRoots silent mem name isRoot
  refine Bool.and_eq_true_iff.mpr
    ⟨sameDescription ▸ (Bool.and_eq_true_iff.mp silent).1, hasUsualRoots_iff.mpr ?_⟩
  rw [areRoots]
  simp only [rereadRoots, usualRoots, List.zip_cons_cons, List.zip_nil_left, List.forall_mem_cons]
  exact ⟨keepsUsual List.mem_cons_self, keepsUsual (List.mem_cons_of_mem _ List.mem_cons_self),
    keepsUsual (List.mem_cons_of_mem _ (List.mem_cons_of_mem _ List.mem_cons_self)),
    List.forall_mem_nil _⟩

/-- A faithful schema resembles what is read of its document. -/
theorem IsFaithful.resembles_of_tells (faithful : schema.IsFaithful) {source : Text}
    {document : List Document.Definition} {isTrusted : Bool} {reread : Schema}
    (told : List.Forall₂ (WrittenPart.Tells schema) schema.writtenParts document)
    (defined : ofDocument source document isTrusted = .ok reread) : schema.Resembles reread := by
  obtain ⟨definitions, read, made⟩ := madeAsTold_of_tells faithful.intact told defined
  have shows := Definitions.level_show_of_told faithful.intact faithful.legible made.plain
    made.types (definitions.types.length + 1)
  refine ⟨?_, forall₂_trans_of_mem made.types made.madeTypes fun type mem _ _ tells isMade =>
      typeResembles_of_made faithful shows made.plain mem tells isMade,
    forall₂_trans_of_mem made.directives made.madeDirectives fun directive mem _ _ tells isMade =>
      directiveResembles_of_made faithful shows mem tells isMade⟩
  cases silent : schema.saysNoRoots with
  | true =>
      have rereadSilent := saysNoRoots_of_reread silent made.description made.roots
      unfold saysNoRoots at silent rereadSilent
      rw [writeSchema, if_pos silent, writeSchema, if_pos rereadSilent]
  | false =>
      refine writeSchema_congr made.description.symm ?_
      rw [made.roots, rereadRoots, rereadRoot, rereadRoot, rereadRoot, silent]
      rfl

/-- A faithful schema that is written as a document resembles what is read of it. -/
theorem IsFaithful.resembles_of_readDocument (faithful : schema.IsFaithful)
    (readable : schema.IsReadable) {text : Text} {isTrusted : Bool} {reread : Schema}
    (written : schema.documentText = .ok text)
    (given : Source.readDocument text isTrusted = .ok reread) : schema.Resembles reread := by
  obtain ⟨document, parsed, defined⟩ := Source.readDocument_eq_ok given
  exact faithful.resembles_of_tells
    (parse_toDocument readable (mapError_eq_ok_iff.mp written) parsed) defined

end SchemaOrder.Schema
