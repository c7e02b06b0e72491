import SchemaOrder.Json.Access
import SchemaOrder.Proofs.Json.Rereading
import SchemaOrder.Proofs.Outcome
import SchemaOrder.Schema.Introspection
import SchemaOrder.Storage.Source

/-!
# What a description says

The parts of a schema are described by objects whose members are named in the library. This module
says what is found under which name, part by part, and that descriptions hold no numbers, so that
they are read as they were written.
-/

namespace SchemaOrder

/-- Different strings are different texts. -/
theorem Text.ofString_injective : Function.Injective Text.ofString := by
  intro first second same
  have chars : Function.Injective CodePoint.ofChar := fun first second same =>
    Char.toNat_inj.mp (congrArg CodePoint.value same)
  exact String.toList_inj.mp (List.map_injective_iff.mpr chars same)

namespace Schema

open Outcome

namespace Describe

attribute [simp] Json.IsPlain.null Json.IsPlain.boolean Json.IsPlain.text

variable {schema : Schema}

/-- What an object of named members has under a name. -/
theorem get?_object (members : List (String × Json)) (name : String) :
    (object members).get? (Text.ofString name) = members.lookup name := by
  unfold object Json.get? Named.find?
  simp only
  induction members with
  | nil => rfl
  | cons member others inductionHypothesis =>
      rw [List.map_cons, List.find?_cons, List.lookup_cons]
      simp only [Text.ofString_injective.eq_iff]
      by_cases same : member.1 = name
      · simp [same]
      · simpa [same, show (name == member.1) = false by simpa using Ne.symm same]
          using inductionHypothesis

/-- The member of an object of named members. -/
theorem member_object {members : List (String × Json)} {name : String} {value : Json}
    (found : members.lookup name = some value) :
    (object members).member (Text.ofString name) = .ok value := by
  unfold Json.member
  rw [get?_object, found]
  rfl

/-- What is looked up in an object of named members. -/
theorem lookup_object (members : List (String × Json)) (name : String) :
    (object members).lookup (Text.ofString name) = .ok ((members.lookup name).getD .null) := by
  unfold Json.lookup
  rw [get?_object]
  rfl

/-- An object of different members is plain if these are. -/
theorem isPlain_object {members : List (String × Json)} (unique : (members.map Prod.fst).Nodup)
    (plain : ∀ member ∈ members, member.2.IsPlain) : (object members).IsPlain := by
  refine .object ?_ (List.forall_mem_map.mpr plain)
  rw [List.map_map]
  have composed : Prod.fst ∘ (fun member : String × Json => (Text.ofString member.1, member.2)) =
      Text.ofString ∘ Prod.fst := rfl
  rw [composed, ← List.map_map]
  exact unique.map Text.ofString_injective

/-- A text that may be absent is plain. -/
@[simp] theorem isPlain_ofText? (text : Option Text) : (Json.ofText? text).IsPlain := by
  cases text with
  | none => exact .null
  | some content => exact .text content

/-- The name and the kind that are said at a level are plain. -/
theorem isPlain_level (schema : Schema) (type : TypeReference) :
    (level schema type).1.IsPlain ∧ (level schema type).2.IsPlain := by
  cases type with
  | named name => exact ⟨.text name, isPlain_ofText? _⟩
  | list => exact ⟨.null, .text _⟩
  | nonNull => exact ⟨.null, .text _⟩

/-- A reference is said from its outermost level on, with its kind first. -/
theorem reference_eq (schema : Schema) (type : TypeReference) :
    reference schema type = object [("kind", (level schema type).2),
      ("name", (level schema type).1), ("ofType", inside schema innerLevels type)] :=
  rfl

/-- What is said of a level inside a reference. -/
def innerLevel (schema : Schema) (remaining : Nat) (type : TypeReference) : Json :=
  object ([("name", (level schema type).1), ("kind", (level schema type).2)] ++
    if remaining = 0 then [] else [("ofType", inside schema remaining type)])

/-- Inside a list stands the level of its items. -/
theorem inside_list (schema : Schema) (remaining : Nat) (inner : TypeReference) :
    inside schema (remaining + 1) (.list inner) = innerLevel schema remaining inner :=
  rfl

/-- Inside a refusal of null stands the level of what refuses it. -/
theorem inside_nonNull (schema : Schema) (remaining : Nat) (inner : TypeReference) :
    inside schema (remaining + 1) (.nonNull inner) = innerLevel schema remaining inner :=
  rfl

/-- The levels of a reference are plain. -/
theorem isPlain_inside (schema : Schema) (remaining : Nat) (type : TypeReference) :
    (inside schema remaining type).IsPlain := by
  have wrapped : ∀ remaining inner, (inside schema remaining inner).IsPlain →
      (innerLevel schema remaining inner).IsPlain := by
    intro remaining inner plain
    unfold innerLevel
    split
    · exact isPlain_object (by simp) (by simp [isPlain_level])
    · exact isPlain_object (by simp) (by simp [isPlain_level, plain])
  induction type generalizing remaining with
  | named => cases remaining <;> exact .null
  | list inner inductionHypothesis =>
      cases remaining with
      | zero => exact .null
      | succ remaining =>
          rw [inside_list]
          exact wrapped remaining inner (inductionHypothesis remaining)
  | nonNull inner inductionHypothesis =>
      cases remaining with
      | zero => exact .null
      | succ remaining =>
          rw [inside_nonNull]
          exact wrapped remaining inner (inductionHypothesis remaining)

/-- What is said of a reference is plain. -/
@[simp] theorem isPlain_reference (schema : Schema) (type : TypeReference) :
    (reference schema type).IsPlain := by
  rw [reference_eq]
  exact isPlain_object (by simp) (by simp [isPlain_level, isPlain_inside])

/-- A list of plain descriptions is plain. -/
theorem isPlain_array_of_mapM {α : Type} {describe : α → Except DescriptionFault Json}
    {things : List α} {values : List Json} (described : things.mapM describe = .ok values)
    (plain : ∀ thing value, describe thing = .ok value → value.IsPlain) :
    (Json.array values).IsPlain := by
  refine .array fun value mem => ?_
  obtain ⟨thing, -, isDescribed⟩ := exists_of_mem_mapM described mem
  exact plain thing value isDescribed

/-- What is said of an argument or an input field. -/
theorem inputValue_described {input : InputValue} {value : Json}
    (described : inputValue schema input = .ok value) :
    value.IsPlain ∧ value.member "name" = .ok (.text input.name) ∧
      value.member "type" = .ok (reference schema input.type) := by
  obtain ⟨written, -, rest⟩ := bind_eq_ok_iff.mp described
  cases rest
  exact ⟨isPlain_object (by simp [deprecation]) (by simp [deprecation]), member_object (by simp),
    member_object (by simp [List.lookup_cons])⟩

/-- The texts that are said of an argument or an input field. -/
theorem inputValue_texts {input : InputValue} {value : Json}
    (described : inputValue schema input = .ok value) :
    value.lookup "description" = .ok (Json.ofText? input.description) ∧
      value.lookup "deprecationReason" = .ok (Json.ofText? input.deprecation) ∧
      ∃ written, schema.defaultText input = .ok written ∧
        value.lookup "defaultValue" = .ok (Json.ofText? written) := by
  obtain ⟨written, isWritten, rest⟩ := bind_eq_ok_iff.mp described
  cases rest
  exact ⟨lookup_object _ _, lookup_object _ _, written, mapError_eq_ok_iff.mp isWritten,
    lookup_object _ _⟩

/-- What is said of arguments is plain. -/
theorem isPlain_inputValues {inputs : List InputValue} {value : Json}
    (described : inputValues schema inputs = .ok value) : value.IsPlain := by
  obtain ⟨values, areValues, rest⟩ := bind_eq_ok_iff.mp described
  cases rest
  exact isPlain_array_of_mapM areValues fun _ _ said => (inputValue_described said).1

/-- What is said of a field. -/
theorem field_described {described : Field} {value : Json}
    (given : field schema described = .ok value) :
    value.IsPlain ∧ value.member "name" = .ok (.text described.name) ∧
      value.member "type" = .ok (reference schema described.type) ∧
      ∃ arguments, inputValues schema described.arguments = .ok arguments ∧
        value.lookup "args" = .ok arguments := by
  obtain ⟨arguments, areArguments, rest⟩ := bind_eq_ok_iff.mp given
  cases rest
  have plain := isPlain_inputValues areArguments
  exact ⟨isPlain_object (by simp [deprecation]) (by simp [deprecation, plain]),
    member_object (by simp), member_object (by simp [List.lookup_cons]), arguments, areArguments,
    lookup_object _ _⟩

/-- The texts that are said of a field. -/
theorem field_texts {described : Field} {value : Json}
    (given : field schema described = .ok value) :
    value.lookup "description" = .ok (Json.ofText? described.description) ∧
      value.lookup "deprecationReason" = .ok (Json.ofText? described.deprecation) := by
  obtain ⟨arguments, -, rest⟩ := bind_eq_ok_iff.mp given
  cases rest
  exact ⟨lookup_object _ _, lookup_object _ _⟩

/-- What is said of fields is plain. -/
theorem isPlain_fields {described : List Field} {value : Json}
    (given : fields schema described = .ok value) : value.IsPlain := by
  obtain ⟨values, areValues, rest⟩ := bind_eq_ok_iff.mp given
  cases rest
  exact isPlain_array_of_mapM areValues fun _ _ said => (field_described said).1

/-- What is said of a value of an enum. -/
theorem enumValue_described (value : EnumValue) :
    (enumValue value).IsPlain ∧ (enumValue value).member "name" = .ok (.text value.name) :=
  ⟨isPlain_object (by simp [deprecation]) (by simp [deprecation]), member_object (by simp)⟩

/-- The texts that are said of a value of an enum. -/
theorem enumValue_texts (value : EnumValue) :
    (enumValue value).lookup "description" = .ok (Json.ofText? value.description) ∧
      (enumValue value).lookup "deprecationReason" = .ok (Json.ofText? value.deprecation) :=
  ⟨lookup_object _ _, lookup_object _ _⟩

/-- What is said of types that are listed is plain. -/
theorem isPlain_names (schema : Schema) (listed : List Text) : (names schema listed).IsPlain :=
  .array (List.forall_mem_map.mpr fun _ _ => isPlain_reference _ _)

/-- What is said of the possible types of a type is plain. -/
@[simp] theorem isPlain_possibleTypes (schema : Schema) (type : NamedType) :
    (possibleTypes schema type).IsPlain := by
  unfold possibleTypes
  split
  · exact isPlain_names _ _
  · exact isPlain_names _ _
  · exact .null

/-- Whether exactly one field is given is said by null or a truth value. -/
theorem isPlain_oneOf {type : NamedType} {flag : Json} (said : oneOf type = .ok flag) :
    flag.IsPlain := by
  unfold oneOf at said
  split at said
  case h_4 =>
    split at said
    · cases said
      exact .boolean _
    · cases said
  case h_5 => cases said
  all_goals
    cases said
    simp

/-- What is said of the fields of a body, where it has some. -/
def bodyFields (schema : Schema) : Body → Except DescriptionFault Json
  | .object _ described | .interface _ described => fields schema described
  | _ => .ok .null

/-- What is said of the input fields of a body, where it has some. -/
def bodyInputs (schema : Schema) : Body → Except DescriptionFault Json
  | .inputObject described _ => inputValues schema described
  | _ => .ok .null

/-- What is said of the interfaces of a body, where it may have some. -/
def bodyInterfaces (schema : Schema) : Body → Json
  | .object interfaces _ | .interface interfaces _ => names schema interfaces
  | _ => .null

/-- What is said of the values of a body, where it has some. -/
def bodyValues : Body → Json
  | .enum values => .array (values.map enumValue)
  | _ => .null

/-- Where it is said how the values of a body are written. -/
def bodyAddress : Body → Json
  | .scalar address => Json.ofText? address
  | _ => .null

/-- Everything that is said of a type. -/
def typeMembers (schema : Schema) (type : NamedType) (flag fields inputs : Json) :
    List (String × Json) :=
  [("kind", .text type.kind.word), ("name", .text type.name),
    ("description", Json.ofText? type.description), ("specifiedByURL", bodyAddress type.body),
    ("isOneOf", flag), ("fields", fields), ("inputFields", inputs),
    ("interfaces", bodyInterfaces schema type.body), ("enumValues", bodyValues type.body),
    ("possibleTypes", possibleTypes schema type)]

/-- What is said of a type fails only for its fields and its input fields. -/
theorem namedType_eq (schema : Schema) (type : NamedType) (flag : Json) :
    namedType schema type flag = (do
      let fields ← bodyFields schema type.body
      let inputs ← bodyInputs schema type.body
      pure (object (typeMembers schema type flag fields inputs))) := by
  obtain ⟨name, description, body⟩ := type
  cases body <;> rfl

/-- What is said of the fields of a body is plain, whether it has some or not. -/
theorem isPlain_bodyFields {body : Body} {value : Json}
    (said : bodyFields schema body = .ok value) : value.IsPlain := by
  cases body with
  | object | interface => exact isPlain_fields said
  | _ =>
      cases said
      exact .null

/-- So is what is said of its input fields. -/
theorem isPlain_bodyInputs {body : Body} {value : Json}
    (said : bodyInputs schema body = .ok value) : value.IsPlain := by
  cases body with
  | inputObject => exact isPlain_inputValues said
  | _ =>
      cases said
      exact .null

/-- So is what is said of its interfaces. -/
@[simp] theorem isPlain_bodyInterfaces (schema : Schema) (body : Body) :
    (bodyInterfaces schema body).IsPlain := by
  cases body with
  | object | interface => exact isPlain_names _ _
  | _ => exact .null

/-- So is what is said of its values. -/
@[simp] theorem isPlain_bodyValues (body : Body) : (bodyValues body).IsPlain := by
  cases body with
  | enum => exact .array (List.forall_mem_map.mpr fun value _ => (enumValue_described value).1)
  | _ => exact .null

/-- So is the address that it has. -/
@[simp] theorem isPlain_bodyAddress (body : Body) : (bodyAddress body).IsPlain := by
  cases body with
  | scalar => exact isPlain_ofText? _
  | _ => exact .null

/-- What is said of a type. -/
theorem namedType_described {type : NamedType} {flag value : Json} (plainFlag : flag.IsPlain)
    (described : namedType schema type flag = .ok value) :
    ∃ fields inputs, bodyFields schema type.body = .ok fields ∧
      bodyInputs schema type.body = .ok inputs ∧ value.IsPlain ∧
      value = object (typeMembers schema type flag fields inputs) := by
  rw [namedType_eq] at described
  simp only [bind_eq_ok_iff, pure_eq_ok_iff] at described
  obtain ⟨fields, areFields, inputs, areInputs, rfl⟩ := described
  have plainFields := isPlain_bodyFields areFields
  have plainInputs := isPlain_bodyInputs areInputs
  exact ⟨fields, inputs, areFields, areInputs, isPlain_object (by simp [typeMembers])
    (by simp [typeMembers, plainFlag, plainFields, plainInputs]), rfl⟩

/-- What is said of a directive. -/
theorem directive_described {described : Directive} {value : Json}
    (given : directive schema described = .ok value) :
    value.IsPlain ∧ value.member "name" = .ok (.text described.name) ∧
      value.get? "isRepeatable" = some (.boolean described.isRepeatable) ∧
      value.lookup "locations" = .ok (Json.ofTexts described.locations) ∧
      ∃ arguments, inputValues schema described.arguments = .ok arguments ∧
        value.lookup "args" = .ok arguments := by
  obtain ⟨arguments, areArguments, rest⟩ := bind_eq_ok_iff.mp given
  cases rest
  have plain := isPlain_inputValues areArguments
  have plainLocations : (Json.ofTexts described.locations).IsPlain :=
    .array (List.forall_mem_map.mpr fun location _ => .text location)
  exact ⟨isPlain_object (by simp [deprecation]) (by simp [deprecation, plain, plainLocations]),
    member_object (by simp), (get?_object _ "isRepeatable").trans (by simp [List.lookup_cons]),
    (lookup_object _ _).trans (by simp [List.lookup_cons, deprecation]), arguments, areArguments,
    (lookup_object _ _).trans (by simp [List.lookup_cons, deprecation])⟩

/-- The texts that are said of a directive. -/
theorem directive_texts {described : Directive} {value : Json}
    (given : directive schema described = .ok value) :
    value.lookup "description" = .ok (Json.ofText? described.description) ∧
      value.lookup "deprecationReason" = .ok (Json.ofText? described.deprecation) := by
  obtain ⟨arguments, -, rest⟩ := bind_eq_ok_iff.mp given
  cases rest
  exact ⟨lookup_object _ _, lookup_object _ _⟩

/-- What is said of the type of an operation is plain, or there is none. -/
@[simp] theorem isPlain_root (schema : Schema) (name : Option Text) :
    (root schema name).IsPlain := by
  cases name with
  | none => exact .null
  | some name => exact isPlain_object (by simp) (by simp [kindOf])

end Describe

/-- What is said of a schema itself. -/
def schemaMembers (schema : Schema) (directives types : List Json) : List (String × Json) :=
  [("description", Json.ofText? schema.description),
    ("queryType", Describe.root schema schema.query),
    ("mutationType", Describe.root schema schema.mutation),
    ("subscriptionType", Describe.root schema schema.subscription),
    ("types", .array types), ("directives", .array directives)]

/-- A schema is described by its types, each with what is known of it already, and its directives,
if validation has nothing to say and there is a type to ask. -/
theorem introspection_eq_ok {schema : Schema} {value : Json}
    (described : schema.introspection = .ok value) :
    schema.validationMessages = [] ∧ schema.query.isSome ∧
      ∃ indexed flags directives types, schema.index.mapM Describe.typeOf = .ok indexed ∧
        indexed.mapM Describe.oneOf = .ok flags ∧
        schema.directives.mapM (Describe.directive schema) = .ok directives ∧
        (indexed.zip flags).mapM (fun entry => Describe.namedType schema entry.1 entry.2) =
          .ok types ∧
        value = Describe.object
          [("__schema", Describe.object (schema.schemaMembers directives types))] := by
  unfold introspection at described
  simp only at described
  split at described
  · cases described
  next noMessages =>
  split at described
  · cases described
  next hasQuery =>
  simp only [bind_eq_ok_iff, pure_eq_ok_iff] at described
  obtain ⟨indexed, areIndexed, flags, areFlags, directives, areDirectives, types, areTypes, rfl⟩ :=
    described
  refine ⟨by simpa using noMessages, ?_, indexed, flags, directives, types, areIndexed, areFlags,
    areDirectives, areTypes, rfl⟩
  rwa [Bool.not_eq_true, Option.isNone_eq_false_iff] at hasQuery

/-- The description of a schema is plain. -/
theorem isPlain_introspection {schema : Schema} {value : Json}
    (described : schema.introspection = .ok value) : value.IsPlain := by
  obtain ⟨-, -, indexed, flags, directives, types, -, areFlags, areDirectives, areTypes, rfl⟩ :=
    introspection_eq_ok described
  have plainDirectives := Describe.isPlain_array_of_mapM areDirectives fun _ _ given =>
    (Describe.directive_described given).1
  have plainTypes : (Json.array types).IsPlain := by
    refine .array fun value mem => ?_
    obtain ⟨⟨type, flag⟩, entryMem, isDescribed⟩ := exists_of_mem_mapM areTypes mem
    obtain ⟨_, -, isFlag⟩ := exists_of_mem_mapM areFlags (List.of_mem_zip entryMem).2
    obtain ⟨_, _, -, -, plain, -⟩ :=
      Describe.namedType_described (Describe.isPlain_oneOf isFlag) isDescribed
    exact plain
  refine Describe.isPlain_object (by simp) ?_
  rw [List.forall_mem_singleton]
  exact Describe.isPlain_object (by simp [schemaMembers])
    (by simp [schemaMembers, plainDirectives, plainTypes])

/-- The text of a description is its value, written on lines of its own. -/
theorem toIntrospection_eq_ok_iff {schema : Schema} {text : Text} :
    schema.toIntrospection = .ok text ↔
      ∃ value, schema.introspection = .ok value ∧
        value.document ++ Text.ofString "\n" = text := by
  rw [toIntrospection, bind_eq_ok_iff]
  simp only [pure_eq_ok_iff]

/-- The description of a schema is read from the text that is written of it. -/
theorem readIntrospection_of_toIntrospection {schema : Schema} {text : Text}
    (written : schema.toIntrospection = .ok text) :
    ∃ value, schema.introspection = .ok value ∧
      Source.readIntrospection text = (ofIntrospection value).mapError .schema := by
  obtain ⟨value, described, rfl⟩ := toIntrospection_eq_ok_iff.mp written
  refine ⟨value, described, ?_⟩
  have parsed := Json.parse_document (isPlain_introspection described)
  have isResult : Source.introspectionResult value = .ok value := by
    obtain ⟨-, -, _, _, directives, types, -, -, -, -, rfl⟩ := introspection_eq_ok described
    have noData := Describe.get?_object
      [("__schema", Describe.object (schema.schemaMembers directives types))] "data"
    have isSchema := Describe.get?_object
      [("__schema", Describe.object (schema.schemaMembers directives types))] "__schema"
    simp [Source.introspectionResult, noData, isSchema, List.lookup_cons]
  unfold Source.readIntrospection
  rw [parsed]
  change ((Source.introspectionResult value).bind fun result =>
    (ofIntrospection result).mapError Fault.schema) = _
  rw [isResult]
  rfl

end Schema

end SchemaOrder
