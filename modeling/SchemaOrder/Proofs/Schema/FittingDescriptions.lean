import SchemaOrder.Proofs.Json.EqualValues
import SchemaOrder.Proofs.Schema.DescribedLegibility
import SchemaOrder.Proofs.Schema.FittingDefaults

/-!
# Described defaults that fit their types

All defaults of a schema that an introspection result describes fit their types as well. They are
texts there, and are coerced to the described types, level by level.
-/

namespace SchemaOrder.Schema

open Outcome

variable {schema : Schema}

namespace Described

variable {types : List DescribedType}

section Levels

variable {more less : InputTypes SchemaFault} (extend : more.Extends less)
include extend

/-- A described default is the same on every level that it is worked out on. -/
theorem defaultValue_of_extends {type : TypeReference} {source : Json} {default? : Option Value}
    (given : defaultValue less type source = .ok default?) :
    defaultValue more type source = .ok default? := by
  unfold defaultValue at given ⊢
  split at given
  · exact given
  · next text =>
      split at given
      · cases given
      · exact Coercion.coerce_of_extends extend _ _ _ given
  · cases given

/-- A described argument or input field is the same on every level that it is worked out on. -/
theorem inputValue_of_extends {place subject : Text} {source : Json} {value : InputValue}
    (given : inputValue less types place subject source = .ok value) :
    inputValue more types place subject source = .ok value := by
  simp only [inputValue, bind_eq_ok_iff] at given ⊢
  obtain ⟨member, isMember, type, isType, kind, isKind, rest⟩ := given
  refine ⟨member, isMember, type, isType, kind, isKind, ?_⟩
  split at rest
  · cases rest
  next isInput =>
  simp only [isInput, Bool.false_eq_true, if_false, bind_eq_ok_iff] at rest ⊢
  obtain ⟨source, isSource, default?, isDefault, rest⟩ := rest
  exact ⟨source, isSource, default?, defaultValue_of_extends extend isDefault, rest⟩

/-- The fields of a described input object are the same on every level that they are worked out
on. -/
theorem inputFields_of_extends {type : DescribedType} {fields : List InputValue}
    (given : inputFields less types type = .ok fields) :
    inputFields more types type = .ok fields := by
  simp only [inputFields, within, collect, bind_eq_ok_iff, mapError_eq_ok_iff] at given ⊢
  obtain ⟨parts, ⟨source, isSource, elements, areElements, all, made, isKeyed⟩, rest⟩ := given
  refine ⟨parts, ⟨source, isSource, elements, areElements, all,
    mapM_eq_ok_of_imp (fun element part given => ?_) made, isKeyed⟩, rest⟩
  simp only [bind_eq_ok_iff] at given ⊢
  obtain ⟨name, isName, input, isInput, rest⟩ := given
  exact ⟨name, isName, input, inputValue_of_extends extend isInput, rest⟩

end Levels

/-- What coercion sees of described types on one level. -/
abbrev level (types : List DescribedType) (fuel : Nat) : InputTypes SchemaFault :=
  ⟨inputShape fuel types, .unexpectedInputType⟩

/-- Every level extends the lower ones. -/
theorem level_extends {more less : Nat} (atMost : less ≤ more) :
    (level types more).Extends (level types less) := by
  refine .of_levels (level types) (fun more less below name => ?_) atMost
  unfold level inputShape
  dsimp only
  cases Standard.type? name with
  | some standard => exact .refl _
  | none =>
      cases Named.find? DescribedType.name name types with
      | none => exact .refl _
      | some type =>
          dsimp only
          cases type.kind with
          | inputObject =>
              refine .inputObject _ fun known isKnown => ?_
              cases less with
              | zero => cases isKnown
              | succ less =>
                  obtain ⟨more, rfl, extend⟩ := below less rfl
                  exact inputFields_of_extends extend isKnown
          | scalar | object | interface | union | enum => exact .refl _

/-- The default of a described argument or input field fits its type. -/
theorem fits_default {inputs : InputTypes SchemaFault} (sound : schema.HasSoundInputs)
    (shows : inputs.Show schema.SameAndFit schema) (areNamed : AreNamed types)
    {place subject : Text} {source : Json} {input : InputValue}
    (given : inputValue inputs types place subject source = .ok input)
    (isKnown : (schema.type? input.type.base).isSome) :
    ∀ value ∈ input.default?, schema.Fits value input.type := by
  intro value isDefault
  obtain ⟨_, _, _, -, isReference, -, -, isValue, -⟩ := inputValue_eq_ok given
  rw [Option.mem_def.mp isDefault] at isValue
  obtain ⟨text, literal, rfl, parsed, coerced⟩ := defaultValue_eq_ok isValue
  exact .of_coerce sound shows (Document.isSpelled_of_parseLiteral parsed) isKnown
    (isReadable_of_referenceWith areNamed isReference) coerced

/-- The defaults of described arguments or input fields, with their names, fit their types. -/
theorem fit_defaults {inputs : InputTypes SchemaFault} (sound : schema.HasSoundInputs)
    (shows : inputs.Show schema.SameAndFit schema) (areNamed : AreNamed types)
    {place subject : Text} {source : Json} {parts : List (Json × InputValue)}
    {checked : List (Text × InputValue)}
    (collected : collect (inputValue inputs types place subject) source = .ok parts)
    (isChecked : checkedParts parts = .ok checked) {input : InputValue}
    (mem : input ∈ named checked) (isKnown : (schema.type? input.type.base).isSome) :
    ∀ value ∈ input.default?, schema.Fits value input.type := by
  obtain ⟨⟨name, unnamed⟩, entryMem, rfl⟩ := List.mem_map.mp mem
  obtain ⟨element, made⟩ := made_of_checkedParts collected isChecked _ entryMem
  have fits := fits_default sound shows areNamed made isKnown
  exact fits

/-- Parts under a text are put together under that text. -/
theorem text_mem_keyed {α : Type} {parts : List (Json × α)} {name : Text} :
    .text name ∈ (keyed parts).map Prod.fst ↔ .text name ∈ parts.map Prod.fst := by
  have step : ∀ known (part : Json × α), .text name ∈ (putPart known part).map Prod.fst ↔
      .text name ∈ known.map Prod.fst ∨ .text name = part.1 := by
    intro known part
    rw [map_fst_putPart]
    split
    · next isKnown =>
        obtain ⟨other, otherMem, agrees⟩ := List.any_eq_true.mp isKnown
        refine ⟨.inl, fun there => there.elim id fun isPart => ?_⟩
        rw [← isPart] at agrees
        obtain ⟨content, isText⟩ := (Json.exists_text_iff_of_agrees agrees).mpr ⟨name, rfl⟩
        rw [isText, Json.text_agrees_iff] at agrees
        exact List.mem_map.mpr ⟨other, otherMem, isText.trans agrees.symm⟩
    · rw [List.mem_append, List.mem_singleton]
  have general : ∀ known : List (Json × α), .text name ∈ (parts.foldl putPart known).map Prod.fst ↔
      .text name ∈ known.map Prod.fst ∨ .text name ∈ parts.map Prod.fst := by
    induction parts with
    | nil => simp
    | cons head tail inductionHypothesis =>
        intro known
        rw [List.foldl_cons, inductionHypothesis, step, List.map_cons, List.mem_cons, or_assoc]
  simpa [keyed_eq_foldl] using general []

/-- A member that a value has to have is there. -/
theorem get?_of_member {value member : Json} {key : Text}
    (given : value.member key = .ok member) : value.get? key = some member := by
  unfold Json.member at given
  split at given
  · split at given
    · next found isFound =>
        cases given
        exact isFound
    · cases given
  · cases given

/-- A member that is looked up is there, or null stands for it. -/
theorem get?_of_lookup {value member : Json} {key : Text}
    (given : value.lookup key = .ok member) :
    value.get? key = some member ∨ value.get? key = none ∧ member = .null := by
  unfold Json.lookup at given
  split at given
  · cases given
    cases Json.get? key _ with
    | none => exact .inr ⟨rfl, rfl⟩
    | some found => exact .inl rfl
  · cases given

/-- What goes through the elements of a value by their members goes through an array, unless there
are none. -/
theorem eq_array_of_members {source : Json} {elements : List Json} {key : Text}
    (areElements : source.elements = .ok elements)
    (members : ∀ element ∈ elements, ∃ member, element.member key = .ok member) :
    source = .array elements ∨ elements = [] := by
  have noMember : ∀ content : Text, ¬∃ member, (Json.text content).member key = .ok member := by
    rintro content ⟨_, ⟨⟩⟩
  cases source with
  | array items =>
      cases areElements
      exact .inl rfl
  | text content =>
      cases areElements
      cases content with
      | nil => exact .inr rfl
      | cons first others => exact absurd (members _ List.mem_cons_self) (noMember _)
  | object entries =>
      cases areElements
      cases entries with
      | nil => exact .inr rfl
      | cons first others => exact absurd (members _ List.mem_cons_self) (noMember _)
  | null | boolean | integer | float => cases areElements

/-- The names that coercion sees of an enum are those of the values that it has. -/
theorem mem_enumNames {description source : Json} {parts : List (Json × EnumValue)}
    {values : List EnumValue} (isSource : description.lookup "enumValues" = .ok source)
    (collected : collect enumValue source = .ok parts) (made : namedValues parts = .ok values)
    {name : Text} : name ∈ enumNames description ↔ name ∈ values.map EnumValue.name := by
  obtain ⟨elements, all, areElements, each, rfl⟩ := collect_eq_ok collected
  have sameNames : (values.map EnumValue.name).map Json.text = (keyed all).map Prod.fst := by
    rw [List.map_map]
    exact map_eq_map_of_forall₂ (forall₂_of_namedValues made) fun part value same => same.1.symm
  have inValues : name ∈ values.map EnumValue.name ↔ .text name ∈ all.map Prod.fst := by
    rw [← text_mem_keyed, ← sameNames]
    simp
  have members : ∀ element ∈ elements, ∃ member, element.member "name" = .ok member := by
    intro element mem
    obtain ⟨part, -, isName, -⟩ := exists_of_mem_forall₂ each.flip mem
    exact ⟨_, isName⟩
  rw [inValues]
  have isFound := get?_of_lookup isSource
  unfold enumNames
  rcases eq_array_of_members areElements members with rfl | rfl
  · rw [isFound.resolve_right nofun]
    simp only [List.mem_filterMap, List.mem_map]
    constructor
    · rintro ⟨element, mem, isText⟩
      obtain ⟨part, partMem, isName, -⟩ := exists_of_mem_forall₂ each.flip mem
      rw [get?_of_member isName] at isText
      split at isText
      · next isName =>
          cases isText
          exact ⟨part, partMem, Option.some.inj isName⟩
      · cases isText
    · rintro ⟨part, partMem, isText⟩
      obtain ⟨element, mem, isName, -⟩ := exists_of_mem_forall₂ each partMem
      refine ⟨element, mem, ?_⟩
      rw [get?_of_member isName, isText]
  · cases each
    refine iff_of_false ?_ nofun
    split
    · next items isArray =>
        rcases isFound with isFound | ⟨-, rfl⟩
        · cases isArray.symm.trans isFound
          cases areElements
          exact nofun
        · cases areElements
    · exact nofun

/-- The arguments and input fields of a body that a described type makes have defaults that fit
their types. -/
theorem fit_of_makes (sound : schema.HasSoundInputs)
    (shows : (inputTypes types).Show schema.SameAndFit schema) (areNamed : AreNamed types)
    {type : DescribedType} {body : Body} (makes : Makes types type body) {input : InputValue}
    (mem : input ∈ body.inputs) (isKnown : (schema.type? input.type.base).isSome) :
    ∀ value ∈ input.default?, schema.Fits value input.type := by
  have inFields : ∀ {fields : List Field}, Described.fields types type = .ok fields →
      input ∈ fields.flatMap Field.arguments →
        ∀ value ∈ input.default?, schema.Fits value input.type := by
    intro fields holds inFields
    obtain ⟨field, fieldMem, inField⟩ := List.mem_flatMap.mp inFields
    obtain ⟨source, parts, checked, -, collected, isChecked, rfl⟩ := fields_eq_ok holds
    obtain ⟨entry, entryMem, rfl⟩ := List.mem_map.mp fieldMem
    obtain ⟨element, isField⟩ := made_of_checkedParts collected isChecked entry entryMem
    obtain ⟨_, _, _, _, _, -, -, -, -, -, given, areChecked, same, -, -⟩ := field_eq_ok isField
    exact fit_defaults sound shows areNamed given areChecked (same ▸ inField) isKnown
  cases makes with
  | object _ _ holds | interface _ _ holds => exact inFields holds mem
  | inputObject _ holds =>
      obtain ⟨source, parts, checked, -, collected, isChecked, rfl⟩ := inputFields_eq_ok holds
      exact fit_defaults sound shows areNamed collected isChecked mem isKnown
  | scalar | union | enum => cases mem

/-- A standard type is seen as it is, on every level. -/
theorem shows_of_standard (intact : schema.Intact) {name : Text} {standard type : NamedType}
    (isStandard : Standard.type? name = some standard) (isType : schema.type? name = some type)
    (fuel : Nat) {related : List InputValue → List InputValue → Prop} :
    ((level types fuel).shape name).Shows related type.body := by
  refine intact.shows_standard isStandard isType ?_ ?_ ?_
  all_goals
    unfold level inputShape
    simp only [isStandard]
  · intro isScalar
    rw [NamedType.kind] at isScalar
    cases isBody : standard.body <;> rw [isBody] at isScalar <;> first | rfl | cases isScalar
  · intro values isBody
    rw [isBody]
  · intro notInput
    rw [NamedType.kind] at notInput
    cases isBody : standard.body <;> rw [isBody] at notInput <;> first | rfl | cases notInput

section Account

variable (intact : schema.Intact) (legible : schema.Legible) (account : Account types schema)
  (areNamed : AreNamed types) (unique : (types.map DescribedType.name).Nodup)
include intact legible account areNamed unique

/-- A described type is seen as it is, and its fields have defaults that fit, if these are coerced
on a level that sees the types of the schema as they are. -/
theorem shows_of_ordinary {name : Text} {type : NamedType} (isType : schema.type? name = some type)
    (ordinary : Standard.type? name = none) {fuel : Nat} (atMost : fuel ≤ types.length + 1)
    (below : ∀ less, fuel = less + 1 → (level types less).Show schema.SameAndFit schema) :
    ((level types fuel).shape name).Shows schema.SameAndFit type.body := by
  obtain ⟨mem, rfl⟩ := intact.type?_eq_some_iff.mp isType
  obtain ⟨described, describedMem, sameName, makes⟩ := account type mem ordinary
  have found : Named.find? DescribedType.name type.name types = some described :=
    (Named.find?_eq_some_iff unique).mpr ⟨describedMem, sameName.symm⟩
  unfold level inputShape
  simp only [ordinary, found]
  generalize isBody : type.body = body at makes
  cases makes with
  | scalar specifiedBy isScalar =>
      rw [isScalar]
      exact .scalar specifiedBy
  | object isKind | interface isKind | union isKind =>
      rw [isKind]
      exact .output rfl
  | enum isEnum isSource collected made =>
      rw [isEnum]
      exact .enum fun name => mem_enumNames isSource collected made
  | inputObject isInputObject holds =>
      rw [isInputObject]
      refine .inputObject rfl fun known isKnown => ?_
      cases fuel with
      | zero => cases isKnown
      | succ less =>
          have extend : (inputTypes types).Extends (level types less) :=
            level_extends (Nat.le_of_succ_le atMost)
          cases holds.symm.trans (inputFields_of_extends extend isKnown)
          refine ⟨rfl, fun field fieldMem => ?_⟩
          obtain ⟨source, parts, checked, -, collected, isChecked, rfl⟩ := inputFields_eq_ok isKnown
          have areFields : schema.inputFields type.name = named checked := by
            rw [Schema.inputFields, isType, Option.map_some, isBody]
          have sound := intact.hasSoundInputs legible
          exact fit_defaults sound (below less rfl) areNamed collected isChecked fieldMem
            (sound.closed type.name field (areFields ▸ fieldMem))

/-- Coercion sees the types of the schema as they are, on every level that it uses. -/
theorem level_show {fuel : Nat} (atMost : fuel ≤ types.length + 1) :
    (level types fuel).Show schema.SameAndFit schema :=
  .of_levels (level types)
    (fun _ _ _ isStandard isType fuel => shows_of_standard intact isStandard isType fuel)
    (fun _ _ isStandard isType _ atMost below =>
      shows_of_ordinary intact legible account areNamed unique isType isStandard atMost below)
    atMost

end Account

end Described

/-- The defaults of a schema that an introspection result describes fit their types. -/
theorem ofIntrospection_hasFittingDefaults {result : Json}
    (described : ofIntrospection result = .ok schema) : schema.HasFittingDefaults := by
  have intact := ofIntrospection_intact described
  have legible := ofIntrospection_legible described
  obtain ⟨types, areNamed, unique, account, -, directives⟩ := exists_described described
  have sound := intact.hasSoundInputs legible
  have shows := Described.level_show intact legible account areNamed unique le_rfl
  intro input isOwn
  have isKnown := intact.isSome_type?_of_isOwnInput isOwn
  rcases isOwn with ⟨type, mem, ordinary, inType⟩ | ⟨directive, mem, -, inDirective⟩
  · obtain ⟨described, -, -, makes⟩ := account type mem (isStandardType_eq_false_iff.mp ordinary)
    exact Described.fit_of_makes sound shows areNamed makes inType isKnown
  · obtain ⟨value, isDirective⟩ := directives directive mem
    obtain ⟨_, _, _, _, _, -, collected, isChecked, same, -⟩ :=
      Described.directive_eq_ok isDirective
    exact Described.fit_defaults sound shows areNamed collected isChecked (same ▸ inDirective)
      isKnown

end SchemaOrder.Schema
