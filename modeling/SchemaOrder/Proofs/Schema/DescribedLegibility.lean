import SchemaOrder.Proofs.Schema.DescribedTypes
import SchemaOrder.Proofs.Schema.Legibility

/-!
# Legibility of described schemas

The schema that an introspection result describes is legible as well: every name in it was
checked, every reference leads to a described type, and every default was read as a literal. What
coercion sees of the described types suits the schema, however far it follows defaults.
-/

namespace SchemaOrder.Schema

open Outcome
open Document (IsName)

/-- A name that is checked is one of the schema language. -/
theorem isName_of_checkName {name : Text} (checked : checkName name = .ok ()) : IsName name := by
  unfold checkName at checked
  split at checked
  · cases checked
  next first others =>
  split at checked
  · cases checked
  next continues =>
  split at checked
  · cases checked
  next starts =>
  simp only [Bool.not_eq_true', Bool.not_eq_false] at continues starts
  exact ⟨starts, List.all_eq_true.mp continues⟩

/-- The names of standard types are names. -/
theorem Standard.isName {name : Text} {type : NamedType} (found : Standard.type? name = some type) :
    IsName name := by
  have areNames : ∀ type ∈ Standard.types, IsName type.name := by decide
  obtain ⟨mem, rfl⟩ := Standard.type?_eq_some found
  exact areNames type mem

namespace Described

variable {types : List DescribedType} {schema : Schema}

/-- All described types have names. -/
def AreNamed (types : List DescribedType) : Prop :=
  ∀ name ∈ types.map DescribedType.name, IsName name

/-- A reference to described types that have names can be read. -/
theorem isReadable_of_referenceWith (named : AreNamed types) {fuel : Nat} {value : Json}
    {reference : TypeReference} (given : referenceWith fuel types value = .ok reference) :
    reference.IsReadable := by
  have made := makesReference_of_referenceWith given
  clear given
  induction made with
  | list _ _ _ _ _ readable => exact .list readable
  | nonNull _ _ _ _ _ nullable _ readable => exact .nonNull readable nullable
  | named _ _ _ _ listed => exact .named (named _ listed)

/-- A default that is described was read as a literal, and coerced. -/
theorem defaultValue_eq_ok {inputs : InputTypes SchemaFault} {type : TypeReference} {source : Json}
    {value : Value} (given : defaultValue inputs type source = .ok (some value)) :
    ∃ text literal, source = .text text ∧ Document.parseLiteral text = .ok literal ∧
      Coercion.coerce inputs literal type = .ok (some value) := by
  unfold defaultValue at given
  split at given
  · cases given
  · next text =>
      split at given
      · cases given
      · next literal parsed => exact ⟨text, literal, rfl, parsed, given⟩
  · cases given

/-- The default of an argument or an input field that is described is written as a literal that
can be read. -/
theorem writesReadable_default {inputs : InputTypes SchemaFault} (suit : inputs.Suit schema)
    {place subject : Text} {source : Json} {input : InputValue}
    (given : inputValue inputs types place subject source = .ok input) :
    ∀ value ∈ input.default?, schema.WritesReadable value input.type := by
  intro value isDefault
  obtain ⟨_, _, _, -, -, -, -, isValue, -⟩ := inputValue_eq_ok given
  rw [Option.mem_def.mp isDefault] at isValue
  obtain ⟨text, literal, rfl, parsed, coerced⟩ := defaultValue_eq_ok isValue
  exact suit.writesReadable_of_coerce (Document.isSpelled_of_parseLiteral parsed) coerced

/-- Arguments or input fields that are described, with their names, can be read, and have
different names. -/
theorem readableInputs {inputs : InputTypes SchemaFault} (suit : inputs.Suit schema)
    (areNamed : AreNamed types) {place subject : Text} {source : Json}
    {parts : List (Json × InputValue)} {checked : List (Text × InputValue)}
    (collected : collect (inputValue inputs types place subject) source = .ok parts)
    (isChecked : checkedParts parts = .ok checked) :
    (∀ input ∈ named checked, schema.ReadableInput input) ∧
      ((named checked).map InputValue.name).Nodup := by
  constructor
  · refine List.forall_mem_map.mpr fun ⟨name, input⟩ mem => ?_
    obtain ⟨part, -, -, isName⟩ := exists_of_mem_forall₂ (forall₂_of_checkedParts isChecked) mem
    obtain ⟨element, made⟩ := made_of_checkedParts collected isChecked _ mem
    obtain ⟨_, _, _, -, isReference, -, -, -, -⟩ := inputValue_eq_ok made
    have default := writesReadable_default suit made
    exact readableInput_of_writesReadable (isName_of_checkName isName)
      (isReadable_of_referenceWith areNamed isReference) default
  · unfold named
    rw [List.map_map]
    exact nodup_of_checkedParts collected isChecked

/-- The fields of a described object or interface can be read, and have different names. -/
theorem readableFields (suit : (inputTypes types).Suit schema) (areNamed : AreNamed types)
    {type : DescribedType} {made : List Field} (given : Described.fields types type = .ok made) :
    (∀ field ∈ made, schema.ReadableField field) ∧ (made.map Field.name).Nodup ∧
      ∀ field ∈ made, (field.arguments.map InputValue.name).Nodup := by
  obtain ⟨source, parts, checked, -, collected, isChecked, rfl⟩ := fields_eq_ok given
  have each : ∀ entry ∈ checked, schema.ReadableField { entry.2 with name := entry.1 } ∧
      (entry.2.arguments.map InputValue.name).Nodup := by
    intro entry mem
    obtain ⟨part, -, -, isName⟩ := exists_of_mem_forall₂ (forall₂_of_checkedParts isChecked) mem
    obtain ⟨element, isField⟩ := made_of_checkedParts collected isChecked entry mem
    obtain ⟨_, _, _, _, _, -, isReference, -, -, -, given, areChecked, same, -, -⟩ :=
      field_eq_ok isField
    obtain ⟨readable, unique⟩ := readableInputs suit areNamed given areChecked
    rw [← same] at readable unique
    exact ⟨⟨isName_of_checkName isName, isReadable_of_referenceWith areNamed isReference, readable⟩,
      unique⟩
  refine ⟨List.forall_mem_map.mpr fun entry mem => (each entry mem).1, ?_,
    List.forall_mem_map.mpr fun entry mem => (each entry mem).2⟩
  rw [List.map_map]
  exact nodup_of_checkedParts collected isChecked

/-- The values of a described enum have different names. -/
theorem readableValues {source : Json} {parts : List (Json × EnumValue)} {values : List EnumValue}
    (collected : collect enumValue source = .ok parts) (made : namedValues parts = .ok values) :
    (∀ value ∈ values, IsName value.name) ∧ (values.map EnumValue.name).Nodup := by
  have all := forall₂_of_namedValues made
  constructor
  · intro value mem
    obtain ⟨part, -, -, isName, -⟩ := exists_of_mem_forall₂ all mem
    exact isName_of_checkName isName
  · obtain ⟨elements, entries, -, -, rfl⟩ := collect_eq_ok collected
    have sameNames : (values.map EnumValue.name).map Json.text = (keyed entries).map Prod.fst := by
      rw [List.map_map]
      exact map_eq_map_of_forall₂ all fun part value same => same.1.symm
    have apart := apart_keyed entries
    unfold Apart at apart
    rw [← sameNames, List.pairwise_map] at apart
    refine apart.imp fun {first second} disagree same => ?_
    simp [Json.agrees, same] at disagree

/-- A body that a described type makes can be read, and its parts have different names. -/
theorem readableBody (suit : (inputTypes types).Suit schema) (areNamed : AreNamed types)
    {type : DescribedType} {body : Body} (makes : Makes types type body) :
    schema.ReadableBody body ∧ body.HasUniqueNames := by
  cases makes with
  | scalar => exact ⟨trivial, trivial⟩
  | object _ implements holds | interface _ implements holds =>
      obtain ⟨readable, unique⟩ := readableFields suit areNamed holds
      exact ⟨⟨fun name mem => areNamed name (listed_of_interfaces implements name mem), readable⟩,
        unique⟩
  | union _ joins =>
      exact ⟨fun name mem => areNamed name (listed_of_members joins name mem), trivial⟩
  | enum _ _ collected made => exact readableValues collected made
  | inputObject _ holds =>
      obtain ⟨source, parts, checked, -, collected, isChecked, rfl⟩ := inputFields_eq_ok holds
      exact readableInputs suit areNamed collected isChecked

/-- Every location of a described directive is one of the language, which are names. -/
theorem isName_of_locations {owner : Text} {values : List Json} {places : List Text}
    (given : locations owner values = .ok places) : ∀ place ∈ places, IsName place := by
  intro place mem
  obtain ⟨value, -, isPlace⟩ := exists_of_mem_mapM given mem
  split at isPlace
  · split at isPlace
    · next known =>
        cases isPlace
        have areNames : ∀ place ∈ Document.directiveLocations, IsName place := by decide
        exact areNames _ (List.contains_iff_mem.mp known)
    · cases isPlace
  · cases isPlace

/-- A described directive can be read, and its arguments have different names. -/
theorem readableDirective (suit : (inputTypes types).Suit schema) (areNamed : AreNamed types)
    {value : Json} {made : Directive} (given : Described.directive types value = .ok made) :
    schema.ReadableDirective made ∧ (made.arguments.map InputValue.name).Nodup := by
  obtain ⟨_, _, _, _, _, -, collected, isChecked, same, -, -, places, -, isName, -⟩ :=
    directive_eq_ok given
  obtain ⟨readable, unique⟩ := readableInputs suit areNamed collected isChecked
  rw [← same] at readable unique
  exact ⟨⟨isName_of_checkName isName, readable, isName_of_locations places⟩, unique⟩

/-- Every type of a schema that is no standard one is made by a described type. -/
def Account (types : List DescribedType) (schema : Schema) : Prop :=
  ∀ type ∈ schema.types, Standard.type? type.name = none → ∃ described ∈ types,
    type.name = described.name ∧ Makes types described type.body

/-- Input fields that are made twice have the same names and types, whatever coercion sees of the
types. -/
theorem forall₂_of_inputFields {inputs inputs' : InputTypes SchemaFault} {type : DescribedType}
    {lefts rights : List InputValue} (left : inputFields inputs types type = .ok lefts)
    (right : inputFields inputs' types type = .ok rights) :
    List.Forall₂ (fun first second => first.name = second.name ∧ first.type = second.type)
      lefts rights := by
  obtain ⟨source, _, lefts, isSource, collected, isChecked, rfl⟩ := inputFields_eq_ok left
  obtain ⟨source', _, rights, isSource', collected', isChecked', rfl⟩ := inputFields_eq_ok right
  obtain rfl := Except.ok.inj (isSource.symm.trans isSource')
  obtain ⟨elements, all, areElements, made, rfl⟩ := collect_eq_ok collected
  obtain ⟨elements', all', areElements', made', rfl⟩ := collect_eq_ok collected'
  obtain rfl := Except.ok.inj (areElements.symm.trans areElements')
  have sameParts : List.Forall₂ (SamePart fun first second : InputValue => first.type = second.type)
      (keyed all) (keyed all') := by
    refine forall₂_keyed (forall₂_of_common made made' ?_)
    rintro element - first second ⟨isName, isMade⟩ ⟨isName', isMade'⟩
    obtain ⟨member, _, _, isMember, isReference, -⟩ := inputValue_eq_ok isMade
    obtain ⟨member', _, _, isMember', isReference', -⟩ := inputValue_eq_ok isMade'
    obtain rfl := Except.ok.inj (isMember.symm.trans isMember')
    exact ⟨Except.ok.inj (isName.symm.trans isName'),
      Except.ok.inj (isReference.symm.trans isReference')⟩
  have sameRight : List.Forall₂ (fun (first : Json × InputValue) (second : Text × InputValue) =>
      first.1 = .text second.1 ∧ first.2.type = second.2.type) (keyed all) rights := by
    refine forall₂_trans_of_mem sameParts (forall₂_of_checkedParts isChecked') ?_
    rintro first - _ second ⟨sameName, sameType⟩ ⟨rfl, -⟩
    exact ⟨sameName, sameType⟩
  unfold named
  rw [List.forall₂_map_left_iff, List.forall₂_map_right_iff]
  refine forall₂_of_common (forall₂_of_checkedParts isChecked) sameRight ?_
  rintro _ - first second ⟨rfl, -⟩ ⟨sameName, sameType⟩
  exact ⟨Json.text.inj sameName, sameType⟩

section Account

variable (intact : schema.Intact) (account : Account types schema)
include intact account

/-- An input object of a schema is made by a described type. -/
theorem exists_of_inputFields {name : Text} {field : InputValue}
    (mem : field ∈ schema.inputFields name) : ∃ described ∈ types, described.name = name ∧
      inputFields (inputTypes types) types described = .ok (schema.inputFields name) := by
  obtain ⟨type, typeMem, rfl, ordinary, oneOf, isBody⟩ := intact.exists_of_inputFields mem
  obtain ⟨described, describedMem, sameName, makes⟩ := account type typeMem ordinary
  rw [isBody] at makes
  cases makes with
  | inputObject _ holds => exact ⟨described, describedMem, sameName.symm, holds⟩

/-- The input fields of a schema have names that were checked. -/
theorem isName_of_inputFields {name : Text} {field : InputValue}
    (mem : field ∈ schema.inputFields name) : IsName field.name := by
  obtain ⟨described, -, -, holds⟩ := exists_of_inputFields intact account mem
  obtain ⟨source, parts, checked, -, -, isChecked, same⟩ := inputFields_eq_ok holds
  rw [same] at mem
  obtain ⟨entry, entryMem, rfl⟩ := List.mem_map.mp mem
  obtain ⟨part, -, -, isName⟩ := exists_of_mem_forall₂ (forall₂_of_checkedParts isChecked) entryMem
  exact isName_of_checkName isName

/-- A described type has the shape of its kind, and its fields have readable defaults if these are
coerced with types that suit the schema. -/
theorem suits_of_ordinary (unique : (types.map DescribedType.name).Nodup) {name : Text}
    (ordinary : Standard.type? name = none) {fuel : Nat}
    (below : ∀ less, fuel = less + 1 →
      (⟨inputShape less types, .unexpectedInputType⟩ : InputTypes SchemaFault).Suit schema) :
    (inputShape fuel types name).Suits schema name := by
  unfold inputShape
  simp only [ordinary]
  split
  · trivial
  next described found =>
  obtain ⟨describedMem, isName⟩ := Named.of_find?_eq_some found
  have isOnly : ∀ other ∈ types, other.name = name → other = described := by
    intro other otherMem sameName
    exact List.inj_on_of_nodup_map unique otherMem describedMem (sameName.trans isName.symm)
  have kinds : ∀ kind, schema.kind? name = some kind → kind = described.kind := by
    intro kind isKind
    refine intact.kind?_of_types (fun type typeMem sameName => ?_) isKind
    subst sameName
    obtain ⟨other, otherMem, sameName, makes⟩ := account type typeMem ordinary
    rw [isOnly other otherMem sameName.symm] at makes
    exact makes.kind
  split
  · next isScalar =>
      rw [isScalar] at kinds
      exact InputShape.suits_scalar kinds
  · next isEnum =>
      rw [isEnum] at kinds
      exact InputShape.suits_enum kinds
  · intro known isKnown field fieldMem own ownMem sameName
    cases fuel with
    | zero => cases isKnown
    | succ less =>
        have suit := below less rfl
        obtain ⟨other, otherMem, isOther, holds⟩ := exists_of_inputFields intact account ownMem
        rw [isOnly other otherMem isOther] at holds
        obtain ⟨source, parts, checked, -, collected, isChecked, same⟩ := inputFields_eq_ok isKnown
        have sameFields := forall₂_of_inputFields isKnown holds
        have uniqueKnown : (known.map InputValue.name).Nodup := by
          rw [same, named, List.map_map]
          exact nodup_of_checkedParts collected isChecked
        obtain ⟨first, firstMem, firstName, firstType⟩ := exists_of_mem_forall₂ sameFields ownMem
        obtain rfl : first = field := List.inj_on_of_nodup_map uniqueKnown firstMem fieldMem
          (firstName.trans sameName)
        refine ⟨firstType.symm, fun value isDefault => ?_⟩
        rw [same] at fieldMem
        obtain ⟨⟨_, input⟩, entryMem, rfl⟩ := List.mem_map.mp fieldMem
        obtain ⟨element, made⟩ := made_of_checkedParts collected isChecked _ entryMem
        rw [← firstType]
        have readable := writesReadable_default suit made value isDefault
        exact readable
  · trivial

/-- What coercion sees of the described types suits the schema that they become, however far
defaults are followed. -/
theorem suit_inputShape (unique : (types.map DescribedType.name).Nodup) (fuel : Nat) :
    (⟨inputShape fuel types, .unexpectedInputType⟩ : InputTypes SchemaFault).Suit schema := by
  refine .of_levels (fun fuel => ⟨inputShape fuel types, .unexpectedInputType⟩)
    (fun _ _ mem => isName_of_inputFields intact account mem) ?_ fuel
  intro fuel below name
  cases isStandard : Standard.type? name with
  | none => exact suits_of_ordinary intact account unique isStandard below
  | some standard =>
      unfold inputShape
      simp only [isStandard]
      split
      · next isScalar =>
          exact InputShape.suits_scalar fun _ isKind =>
            (intact.kind?_of_standard isStandard isKind).trans (congrArg Body.kind isScalar)
      · next isEnum =>
          exact InputShape.suits_enum fun _ isKind =>
            (intact.kind?_of_standard isStandard isKind).trans (congrArg Body.kind isEnum)
      · trivial

end Account

end Described

/-- The types of a schema that an introspection result describes are standard ones, or made by
described types with different names, and its directives are made by described directives. -/
theorem exists_described {result : Json} {schema : Schema}
    (described : ofIntrospection result = .ok schema) :
    ∃ types, Described.AreNamed types ∧ (types.map DescribedType.name).Nodup ∧
      Described.Account types schema ∧ (∀ name, some name ∈ schema.roots →
        name ∈ types.map DescribedType.name) ∧
      ∀ directive ∈ schema.directives,
        ∃ value, Described.directive types value = .ok directive := by
  obtain ⟨members, listing, elements, all, outlines, types, listed, -, -, -, outlined, areOutlines,
    areTypes, drafts, recollects, -, isQuery, isMutation, isSubscription, areDirectives, -⟩ :=
    ofIntrospection_eq_ok described
  have wereMade : ∀ outline ∈ outlines, ∃ value, Described.outline value = .ok outline := by
    intro outline mem
    obtain ⟨value, -, made⟩ := exists_of_mem_forall₂ outlined
      (Named.mem_of_mem_ofList (areOutlines ▸ mem))
    exact ⟨value, made⟩
  refine ⟨types, fun name mem => ?_, ?_, fun type mem ordinary => ?_, fun name isRoot => ?_,
    fun directive mem => ?_⟩
  · rw [← areTypes, List.map_map] at mem
    obtain ⟨outline, outlineMem, rfl⟩ := List.mem_map.mp mem
    obtain ⟨value, made⟩ := wereMade outline outlineMem
    obtain ⟨-, -, -, ⟨standard, isStandard⟩ | isChecked, -⟩ := Described.outline_eq_ok made
    · exact Standard.isName isStandard
    · exact isName_of_checkName isChecked
  · rw [← areTypes, ← areOutlines, List.map_map]
    exact Named.nodup_ofList _ _
  · obtain ⟨outline, outlineMem, isDraft⟩ :=
      exists_of_mem_forall₂ drafts (recollects.mem_listed mem ordinary)
    obtain ⟨value, made⟩ := wereMade outline outlineMem
    have sameName : (Described.typeDraft types outline.1 outline.2).name = outline.1.name :=
      Described.name_typeDraft made
    rw [isDraft, TypeDraft.name_ofType] at sameName
    obtain ⟨sameName, -, makes⟩ := Described.makes_of_typeDraft made isDraft (sameName ▸ ordinary)
    exact ⟨outline.1, areTypes ▸ List.mem_map_of_mem outlineMem, sameName, makes⟩
  · simp only [roots, List.mem_cons, List.not_mem_nil, or_false] at isRoot
    rcases isRoot with isRoot | isRoot | isRoot
    · exact Described.listed_of_root (isRoot ▸ isQuery)
    · exact Described.listed_of_root (isRoot ▸ isMutation)
    · exact Described.listed_of_root (isRoot ▸ isSubscription)
  · obtain ⟨value, -, rest⟩ := bind_eq_ok_iff.mp areDirectives
    split at rest
    · rw [← Except.ok.inj rest] at mem
      cases mem
    · obtain ⟨values, -, made⟩ := bind_eq_ok_iff.mp rest
      obtain ⟨source, -, isDirective⟩ := exists_of_mem_mapM made mem
      exact ⟨source, isDirective⟩

/-- The schema that an introspection result describes is legible. -/
theorem ofIntrospection_legible {result : Json} {schema : Schema}
    (described : ofIntrospection result = .ok schema) : schema.Legible := by
  have intact := ofIntrospection_intact described
  obtain ⟨types, areNamed, unique, account, areRoots, directives⟩ := exists_described described
  have suit := Described.suit_inputShape intact account unique (types.length + 1)
  have madeReadable : ∀ directive ∈ schema.directives, schema.ReadableDirective directive ∧
      (directive.arguments.map InputValue.name).Nodup := by
    intro directive mem
    obtain ⟨value, isDirective⟩ := directives directive mem
    exact Described.readableDirective suit areNamed isDirective
  refine ⟨fun name isRoot => areNamed name (areRoots name isRoot),
    fun directive mem => (madeReadable directive mem).2,
    fun directive mem _ => (madeReadable directive mem).1, fun type mem ordinary => ?_⟩
  · obtain ⟨described, describedMem, sameName, makes⟩ :=
      account type mem (isStandardType_eq_false_iff.mp ordinary)
    exact ⟨sameName ▸ areNamed _ (List.mem_map_of_mem describedMem),
      Described.readableBody suit areNamed makes⟩

end SchemaOrder.Schema
