import SchemaOrder.Proofs.Schema.DefinedTypes
import SchemaOrder.Proofs.Schema.DescribedReferences

/-!
# What a description makes of its parts

Every type that a schema has from an introspection result, save the standard ones, is what one
described type makes, part by part: `Described.Makes` says which parts these are, and
`ofIntrospection_eq_ok` takes a schema apart into them. Parts that are collected under names keep
the order in which their names first stand.
-/

namespace SchemaOrder.Schema

open Outcome

namespace Described

variable {types : List DescribedType}

/-- A checked name is a text that names may be. -/
theorem checkedName_eq_ok {value : Json} {name : Text} (given : checkedName value = .ok name) :
    value = .text name ∧ checkName name = .ok () := by
  cases value with
  | text content =>
      obtain ⟨⟨⟩, isName, rest⟩ := bind_eq_ok_iff.mp given
      cases rest
      exact ⟨rfl, isName⟩
  | _ => cases given

/-- A value says a text under a key, or null for none. -/
def SaysText (value : Json) (key : Text) (text? : Option Text) : Prop :=
  ∃ found subject, value.lookup key = .ok found ∧ optionalText subject found = .ok text?

/-- Where a text was described, or null for none, it is what is said. -/
theorem SaysText.eq {value : Json} {key : Text} {text? made : Option Text}
    (isSaid : SaysText value key made) (described : value.lookup key = .ok (Json.ofText? text?)) :
    made = text? := by
  obtain ⟨found, subject, isFound, isText⟩ := isSaid
  obtain rfl := Except.ok.inj (described.symm.trans isFound)
  cases text? <;> exact (Except.ok.inj isText).symm

/-- What an argument or an input field is, where it can be worked out. Its name is still open. -/
theorem inputValue_eq_ok {inputs : InputTypes SchemaFault} {place subject : Text}
    {source : Json} {value : InputValue}
    (given : inputValue inputs types place subject source = .ok value) :
    ∃ member kind default,
      source.member "type" = .ok member ∧ reference types member = .ok value.type ∧
      baseKind types value.type = .ok kind ∧ kind.isInput = true ∧
      defaultValue inputs value.type default = .ok value.default? ∧ value.name = [] ∧
      source.lookup "defaultValue" = .ok default ∧
      SaysText source "description" value.description ∧
      SaysText source "deprecationReason" value.deprecation := by
  simp only [inputValue, ask, bind_eq_ok_iff, mapError_eq_ok_iff] at given
  obtain ⟨member, isMember, type, isReference, kind, isKind, rest⟩ := given
  cases isInput : kind.isInput with
  | false =>
      rw [isInput] at rest
      cases rest
  | true =>
      simp only [isInput, Bool.not_true, Bool.false_eq_true, if_false, bind_eq_ok_iff,
        pure_eq_ok_iff, mapError_eq_ok_iff] at rest
      obtain ⟨default, defaultSaid, default?, isDefault, description, descriptionSaid, reason,
        reasonSaid, description?, isDescription, reason?, isReason, rfl⟩ := rest
      exact ⟨member, kind, default, isMember, isReference, isKind, isInput, isDefault, rfl,
        defaultSaid, ⟨description, _, descriptionSaid, isDescription⟩,
        ⟨reason, _, reasonSaid, isReason⟩⟩

/-- What a field is, where it can be worked out. Its name is still open. -/
theorem field_eq_ok {source : Json} {field : Field}
    (given : Described.field types source = .ok field) :
    ∃ member kind args parts checked,
      source.member "type" = .ok member ∧ reference types member = .ok field.type ∧
      baseKind types field.type = .ok kind ∧ kind.isOutput = true ∧
      source.lookup "args" = .ok args ∧ arguments types args = .ok parts ∧
      checkedParts parts = .ok checked ∧ field.arguments = named checked ∧
      SaysText source "description" field.description ∧
      SaysText source "deprecationReason" field.deprecation := by
  simp only [Described.field, ask, bind_eq_ok_iff, mapError_eq_ok_iff] at given
  obtain ⟨member, isMember, type, isReference, kind, isKind, rest⟩ := given
  cases isOutput : kind.isOutput with
  | false =>
      rw [isOutput] at rest
      cases rest
  | true =>
      simp only [isOutput, Bool.not_true, Bool.false_eq_true, if_false, bind_eq_ok_iff] at rest
      obtain ⟨args, areArgs, rest⟩ := rest
      split at rest
      · cases rest
      simp only [bind_eq_ok_iff, pure_eq_ok_iff, mapError_eq_ok_iff] at rest
      obtain ⟨parts, collected, description, descriptionSaid, reason, reasonSaid, checked,
        isChecked, description?, isDescription, reason?, isReason, rfl⟩ := rest
      exact ⟨member, kind, args, parts, checked, isMember, isReference, isKind, isOutput,
        mapError_eq_ok_iff.mp areArgs, collected, isChecked, rfl,
        ⟨description, _, descriptionSaid, isDescription⟩, ⟨reason, _, reasonSaid, isReason⟩⟩

section Keyed

variable {α β : Type}

/-- A part is put in under its name: it takes the place of the part that is there, or goes to the
end. -/
def putPart (known : List (Json × α)) (part : Json × α) : List (Json × α) :=
  if known.any fun other => other.1.agrees part.1 then
    known.map fun other => if other.1.agrees part.1 then (other.1, part.2) else other
  else known ++ [part]

/-- The parts are put in one after the other. -/
theorem keyed_eq_foldl (parts : List (Json × α)) : keyed parts = parts.foldl putPart [] :=
  rfl

/-- The names of parts do not agree with each other. -/
def Apart (parts : List (Json × α)) : Prop :=
  (parts.map Prod.fst).Pairwise fun first second => first.agrees second = false

/-- Putting in a part under a name that is there leaves the names as they are. -/
theorem map_fst_putPart (known : List (Json × α)) (part : Json × α) :
    (putPart known part).map Prod.fst =
      if known.any fun other => other.1.agrees part.1 then known.map Prod.fst
      else known.map Prod.fst ++ [part.1] := by
  unfold putPart
  split
  · rw [List.map_map]
    refine List.map_congr_left fun other _ => ?_
    simp only [Function.comp_apply]
    split <;> rfl
  · exact List.map_append

/-- Putting in one more part keeps names apart. -/
theorem Apart.putPart {known : List (Json × α)} (apart : Apart known) (part : Json × α) :
    Apart (putPart known part) := by
  unfold Apart
  rw [map_fst_putPart]
  split
  · exact apart
  · next fresh =>
      rw [List.pairwise_append]
      refine ⟨apart, List.pairwise_singleton _ _, fun first firstMem second secondMem => ?_⟩
      obtain ⟨other, otherMem, rfl⟩ := List.mem_map.mp firstMem
      obtain rfl := List.mem_singleton.mp secondMem
      simpa using fun agrees => fresh (List.any_eq_true.mpr ⟨other, otherMem, agrees⟩)

/-- No two parts that are put together by name have names that agree. -/
theorem apart_keyed (parts : List (Json × α)) : Apart (keyed parts) := by
  rw [keyed_eq_foldl]
  exact List.foldlRecOn (motive := Apart) parts _ .nil fun known apart part _ => apart.putPart part

/-- Parts whose names are apart are put together as they stand. -/
theorem keyed_of_apart {parts : List (Json × α)} (apart : Apart parts) : keyed parts = parts := by
  have general : ∀ known : List (Json × α), Apart (known ++ parts) →
      parts.foldl putPart known = known ++ parts := by
    clear apart
    induction parts with
    | nil => simp
    | cons head tail inductionHypothesis =>
        intro known apart
        have fresh : (known.any fun other => other.1.agrees head.1) = false := by
          unfold Apart at apart
          rw [List.map_append, List.pairwise_append] at apart
          rw [List.any_eq_false]
          intro other mem
          simpa using apart.2.2 _ (List.mem_map_of_mem mem) head.1 (by simp)
        have step : putPart known head = known ++ [head] := by simp [putPart, fresh]
        rw [List.foldl_cons, step, inductionHypothesis _ (by simpa using apart)]
        simp
  exact general [] apart

/-- Parts of one name that are related. -/
def SamePart (related : α → β → Prop) (left : Json × α) (right : Json × β) : Prop :=
  left.1 = right.1 ∧ related left.2 right.2

/-- Related parts of the same names are put together alike. -/
theorem forall₂_keyed {related : α → β → Prop} {lefts : List (Json × α)}
    {rights : List (Json × β)} (all : List.Forall₂ (SamePart related) lefts rights) :
    List.Forall₂ (SamePart related) (keyed lefts) (keyed rights) := by
  have step : ∀ {known known'} {left right}, SamePart related left right →
      List.Forall₂ (SamePart related) known known' →
      List.Forall₂ (SamePart related) (putPart known left) (putPart known' right) := by
    intro known known' left right same before
    have sameTest : (known.any fun other => other.1.agrees left.1) =
        known'.any fun other => other.1.agrees right.1 := by
      induction before with
      | nil => rfl
      | cons head _ inductionHypothesis =>
          rw [List.any_cons, List.any_cons, inductionHypothesis, head.1, same.1]
    unfold putPart
    rw [sameTest]
    split
    · rw [List.forall₂_map_left_iff, List.forall₂_map_right_iff]
      refine before.imp fun first second both => ?_
      rw [both.1, same.1]
      split
      · exact ⟨rfl, same.2⟩
      · exact both
    · exact List.rel_append before (.cons same .nil)
  have general : ∀ {known known'}, List.Forall₂ (SamePart related) known known' →
      List.Forall₂ (SamePart related) (lefts.foldl putPart known)
        (rights.foldl putPart known') := by
    induction all with
    | nil => exact id
    | cons head _ inductionHypothesis => exact fun before => inductionHypothesis (step head before)
  exact general .nil

end Keyed

section Collected

variable {α : Type} {make : Json → Except SchemaFault α} {value : Json} {parts : List (Json × α)}

/-- What is collected is what every element of a value makes under its name, put together by
name. -/
theorem collect_eq_ok (given : collect make value = .ok parts) :
    ∃ elements all, value.elements = .ok elements ∧ List.Forall₂ (fun element part =>
      element.member "name" = .ok part.1 ∧ make element = .ok part.2) elements all ∧
        parts = keyed all := by
  simp only [collect, ask, bind_eq_ok_iff, mapError_eq_ok_iff] at given
  obtain ⟨elements, areElements, all, made, rest⟩ := given
  cases rest
  refine ⟨elements, all, areElements, (forall₂_of_mapM made).imp fun element part makes => ?_, rfl⟩
  simp only [bind_eq_ok_iff, mapError_eq_ok_iff, pure_eq_ok_iff] at makes
  obtain ⟨name, isName, result, isMade, key, isKey, rfl⟩ := makes
  rw [← eq_of_asKey (mapError_eq_ok_iff.mpr isKey)]
  exact ⟨isName, isMade⟩

/-- Parts with checked names are the parts, with texts for names. -/
theorem forall₂_of_checkedParts {checked : List (Text × α)}
    (given : checkedParts parts = .ok checked) :
    List.Forall₂ (fun part entry => part = (.text entry.1, entry.2) ∧ checkName entry.1 = .ok ())
      parts checked := by
  refine (forall₂_of_mapM given).imp fun part entry makes => ?_
  obtain ⟨name, isChecked, rest⟩ := bind_eq_ok_iff.mp makes
  cases rest
  obtain ⟨isText, isName⟩ := checkedName_eq_ok isChecked
  exact ⟨Prod.ext isText rfl, isName⟩

/-- Parts that are collected and have checked names have different ones. -/
theorem nodup_of_checkedParts {checked : List (Text × α)} (given : collect make value = .ok parts)
    (isChecked : checkedParts parts = .ok checked) : (checked.map Prod.fst).Nodup := by
  obtain ⟨elements, all, -, -, rfl⟩ := collect_eq_ok given
  have sameNames : (checked.map Prod.fst).map Json.text = (keyed all).map Prod.fst := by
    rw [List.map_map]
    exact map_eq_map_of_forall₂ (forall₂_of_checkedParts isChecked) fun part entry same => by
      simp [same.1]
  have apart := apart_keyed all
  unfold Apart at apart
  rw [← sameNames, List.pairwise_map] at apart
  refine apart.imp fun {first second} disagree same => ?_
  simp [Json.agrees, same] at disagree

end Collected

/-- What the fields of a described object or interface are, where they can be worked out. -/
theorem fields_eq_ok {type : DescribedType} {made : List Field}
    (given : Described.fields types type = .ok made) :
    ∃ source parts checked, type.description.lookup "fields" = .ok source ∧
      collect (field types) source = .ok parts ∧ checkedParts parts = .ok checked ∧
      made = checked.map fun entry => { entry.2 with name := entry.1 } := by
  obtain ⟨parts, collects, rest⟩ := bind_eq_ok_iff.mp given
  obtain ⟨source, isSource, collects⟩ := bind_eq_ok_iff.mp (mapError_eq_ok_iff.mp collects)
  split at collects
  · cases collects
  split at rest
  · cases rest
  obtain ⟨checked, isChecked, rest⟩ := bind_eq_ok_iff.mp rest
  cases rest
  exact ⟨source, parts, checked, mapError_eq_ok_iff.mp isSource, collects, isChecked, rfl⟩

/-- What the fields of a described input object are, where they can be worked out. -/
theorem inputFields_eq_ok {inputs : InputTypes SchemaFault} {type : DescribedType}
    {made : List InputValue} (given : inputFields inputs types type = .ok made) :
    ∃ source parts checked, type.description.member "inputFields" = .ok source ∧
      collect (inputValue inputs types "input fields" "Input field") source = .ok parts ∧
      checkedParts parts = .ok checked ∧ made = named checked := by
  obtain ⟨parts, collects, rest⟩ := bind_eq_ok_iff.mp given
  obtain ⟨source, isSource, collects⟩ := bind_eq_ok_iff.mp (mapError_eq_ok_iff.mp collects)
  split at rest
  · cases rest
  obtain ⟨checked, isChecked, rest⟩ := bind_eq_ok_iff.mp rest
  cases rest
  exact ⟨source, parts, checked, mapError_eq_ok_iff.mp isSource, collects, isChecked, rfl⟩

/-- The interfaces of a described type are read one by one. Only an interface may leave them
out. -/
theorem interfaces_eq_ok {type : DescribedType} {names : List Text}
    (given : Described.interfaces types type = .ok names) :
    ∃ source, type.description.lookup "interfaces" = .ok source ∧
      (source.isNull = true ∧ names = [] ∨ ∃ elements, source.elements = .ok elements ∧
        List.Forall₂ (fun element name =>
          referenceOfKind types .interface "Interface" element = .ok name) elements names) := by
  obtain ⟨source, isSource, rest⟩ := bind_eq_ok_iff.mp (mapError_eq_ok_iff.mp given)
  refine ⟨source, mapError_eq_ok_iff.mp isSource, ?_⟩
  split at rest
  · next isNull =>
      split at rest
      · cases rest
        exact .inl ⟨isNull, rfl⟩
      · cases rest
  · obtain ⟨elements, areElements, references⟩ := bind_eq_ok_iff.mp rest
    exact .inr ⟨elements, mapError_eq_ok_iff.mp areElements, forall₂_of_mapM references⟩

/-- The members of a described union are read one by one. -/
theorem members_eq_ok {type : DescribedType} {names : List Text}
    (given : Described.members types type = .ok names) :
    ∃ source elements, type.description.member "possibleTypes" = .ok source ∧
      source.elements = .ok elements ∧ List.Forall₂ (fun element name =>
        referenceOfKind types .object "Object" element = .ok name) elements names := by
  obtain ⟨source, isSource, rest⟩ := bind_eq_ok_iff.mp (mapError_eq_ok_iff.mp given)
  obtain ⟨elements, areElements, references⟩ := bind_eq_ok_iff.mp rest
  exact ⟨source, elements, mapError_eq_ok_iff.mp isSource, mapError_eq_ok_iff.mp areElements,
    forall₂_of_mapM references⟩

/-- The values of an enum have the names of the parts, which values may have, and are otherwise as
the parts are. -/
theorem forall₂_of_namedValues {parts : List (Json × EnumValue)} {values : List EnumValue}
    (given : namedValues parts = .ok values) :
    List.Forall₂ (fun part value => part.1 = .text value.name ∧ checkName value.name = .ok () ∧
      value = { part.2 with name := value.name }) parts values := by
  refine (forall₂_of_mapM given).imp fun part value makes => ?_
  obtain ⟨name, isChecked, rest⟩ := bind_eq_ok_iff.mp makes
  obtain ⟨⟨⟩, -, rest⟩ := bind_eq_ok_iff.mp rest
  cases rest
  obtain ⟨isText, isName⟩ := checkedName_eq_ok isChecked
  exact ⟨isText, isName, rfl⟩

/-- What a value of an enum is, where it can be worked out. Its name is still open. -/
theorem enumValue_eq_ok {source : Json} {value : EnumValue}
    (given : Described.enumValue source = .ok value) :
    SaysText source "description" value.description ∧
      SaysText source "deprecationReason" value.deprecation := by
  simp only [Described.enumValue, ask, bind_eq_ok_iff, mapError_eq_ok_iff, pure_eq_ok_iff] at given
  obtain ⟨_, -, description, descriptionSaid, reason, reasonSaid, description?, isDescription,
    reason?, isReason, rfl⟩ := given
  exact ⟨⟨description, _, descriptionSaid, isDescription⟩, ⟨reason, _, reasonSaid, isReason⟩⟩

/-- The body that a described type makes. -/
inductive Makes (types : List DescribedType) (type : DescribedType) : Body → Prop where
  | scalar (specifiedBy : Option Text) (isScalar : type.kind = .scalar)
      (said : SaysText type.description "specifiedByURL" specifiedBy) :
      Makes types type (.scalar specifiedBy)
  | object {names : List Text} {made : List Field} (isObject : type.kind = .object)
      (implements : Described.interfaces types type = .ok names)
      (holds : Described.fields types type = .ok made) : Makes types type (.object names made)
  | interface {names : List Text} {made : List Field} (isInterface : type.kind = .interface)
      (implements : Described.interfaces types type = .ok names)
      (holds : Described.fields types type = .ok made) : Makes types type (.interface names made)
  | union {names : List Text} (isUnion : type.kind = .union)
      (joins : Described.members types type = .ok names) : Makes types type (.union names)
  | enum {source : Json} {parts : List (Json × EnumValue)} {values : List EnumValue}
      (isEnum : type.kind = .enum) (isSource : type.description.lookup "enumValues" = .ok source)
      (collected : collect enumValue source = .ok parts) (made : namedValues parts = .ok values) :
      Makes types type (.enum values)
  | inputObject {made : List InputValue} (isInputObject : type.kind = .inputObject)
      (holds : inputFields (inputTypes types) types type = .ok made) :
      Makes types type (.inputObject made (oneOf type.description))

/-- A body is of the kind of the described type that makes it. -/
theorem Makes.kind {type : DescribedType} {body : Body} (makes : Makes types type body) :
    body.kind = type.kind := by
  cases makes with
  | scalar _ isKind | object isKind _ _ | interface isKind _ _ | union isKind _
  | enum isKind _ _ _ | inputObject isKind _ => exact isKind.symm

/-- A name that no standard type has is checked. -/
theorem unreservedName_eq_ok {value : Json} {name : Text}
    (given : unreservedName value = .ok name) :
    value = .text name ∧ checkName name = .ok () := by
  obtain ⟨key, isKey, rest⟩ := bind_eq_ok_iff.mp given
  obtain rfl := eq_of_asKey isKey
  split at rest
  · split at rest
    · cases rest
    · exact checkedName_eq_ok rest
  · exact checkedName_eq_ok rest

/-- The name in a heading is checked, and the description is a text. -/
theorem heading_eq_ok {name description : Json} {found : Text × Option Text}
    (given : heading name description = .ok found) :
    name = .text found.1 ∧ checkName found.1 = .ok () ∧
      optionalText "The description" description = .ok found.2 := by
  obtain ⟨checked, isChecked, rest⟩ := bind_eq_ok_iff.mp given
  obtain ⟨text, isText, rest⟩ := bind_eq_ok_iff.mp rest
  cases rest
  obtain ⟨isName, nameChecked⟩ := checkedName_eq_ok isChecked
  exact ⟨isName, nameChecked, isText⟩

/-- A standard type that a name is of has the name. -/
theorem standard?_eq_ok {value : Json} {type : NamedType}
    (given : standard? value = .ok (some type)) : value = .text type.name := by
  obtain ⟨key, isKey, rest⟩ := bind_eq_ok_iff.mp given
  obtain rfl := eq_of_asKey isKey
  split at rest
  · rw [(Standard.type?_eq_some (Except.ok.inj rest)).2]
  · cases rest

/-- What an outline says of a described type of a kind. -/
inductive Outlines (value : Json) : TypeKind → Outline → Prop where
  | standard {kind : TypeKind} {type : NamedType} : Outlines value kind (.standard type)
  | scalar {description specifiedBy : Option Text}
      (isDescription : SaysText value "description" description)
      (said : SaysText value "specifiedByURL" specifiedBy) :
      Outlines value .scalar (.scalar description specifiedBy)
  | enum {source : Json} {parts : List (Json × EnumValue)} {values : List EnumValue}
      {description : Option Text} (isDescription : SaysText value "description" description)
      (isSource : value.lookup "enumValues" = .ok source)
      (collected : collect enumValue source = .ok parts) (made : namedValues parts = .ok values) :
      Outlines value .enum (.enum description values)
  | other {kind : TypeKind} {description : Option Text}
      (isDescription : SaysText value "description" description) (notScalar : kind ≠ .scalar)
      (notEnum : kind ≠ .enum) : Outlines value kind (.other description)

/-- The outline of a type has its name, which is that of a standard type or a checked one, and
says what types of its kind say. -/
theorem outlineOfKind_eq_ok {kind : TypeKind} {key value : Json} {found : Text × Outline}
    (given : outlineOfKind kind key value = .ok found) :
    key = .text found.1 ∧ ((∃ type, Standard.type? found.1 = some type) ∨
      checkName found.1 = .ok ()) ∧ Outlines value kind found.2 := by
  have ofStandard : ∀ {type}, standard? key = .ok (some type) →
      key = .text type.name ∧ ((∃ other, Standard.type? type.name = some other) ∨
        checkName type.name = .ok ()) ∧ Outlines value kind (.standard type) :=
    fun {type} isStandard => ⟨standard?_eq_ok isStandard,
      .inl ⟨type, type?_name_of_standard? isStandard⟩, .standard⟩
  cases kind with
  | scalar =>
      obtain ⟨standard, isStandard, rest⟩ := bind_eq_ok_iff.mp given
      cases standard with
      | some type =>
          cases rest
          exact ofStandard isStandard
      | none =>
          simp only [bind_eq_ok_iff, ask, mapError_eq_ok_iff] at rest
          obtain ⟨content, said, address, addressSaid, ⟨name, _⟩, isHeading, rest⟩ := rest
          obtain ⟨isText, isName, isDescription⟩ := heading_eq_ok isHeading
          have description : SaysText value "description" _ := ⟨content, _, said, isDescription⟩
          split at rest <;> cases rest
          all_goals
            exact ⟨isText, .inr isName, .scalar description ⟨_, [], addressSaid, rfl⟩⟩
  | object =>
      obtain ⟨standard, isStandard, rest⟩ := bind_eq_ok_iff.mp given
      cases standard with
      | some type =>
          cases rest
          exact ofStandard isStandard
      | none =>
          simp only [bind_eq_ok_iff, ask, mapError_eq_ok_iff] at rest
          obtain ⟨content, said, ⟨name, _⟩, isHeading, rest⟩ := rest
          cases rest
          obtain ⟨isText, isName, isDescription⟩ := heading_eq_ok isHeading
          exact ⟨isText, .inr isName, .other ⟨content, _, said, isDescription⟩ (by decide)
            (by decide)⟩
  | enum =>
      obtain ⟨source, isSource, rest⟩ := bind_eq_ok_iff.mp given
      split at rest
      · cases rest
      obtain ⟨standard, isStandard, rest⟩ := bind_eq_ok_iff.mp rest
      cases standard with
      | some type =>
          cases rest
          exact ofStandard isStandard
      | none =>
          simp only [bind_eq_ok_iff] at rest
          obtain ⟨content, said, parts, collected, ⟨name, _⟩, isHeading, values, made, rest⟩ := rest
          cases rest
          obtain ⟨isText, isName, isDescription⟩ := heading_eq_ok isHeading
          exact ⟨isText, .inr isName, .enum ⟨content, _, mapError_eq_ok_iff.mp said, isDescription⟩
            (mapError_eq_ok_iff.mp isSource) collected made⟩
  | interface =>
      simp only [outlineOfKind, compositeOutline, bind_eq_ok_iff] at given
      obtain ⟨content, said, name, isUnreserved, _, isDescription, rest⟩ := given
      cases rest
      obtain ⟨isText, isName⟩ := unreservedName_eq_ok isUnreserved
      exact ⟨isText, .inr isName, .other
        ⟨content, _, mapError_eq_ok_iff.mp said, isDescription⟩ (by decide) (by decide)⟩
  | union | inputObject =>
      obtain ⟨part, -, rest⟩ := bind_eq_ok_iff.mp given
      split at rest
      · cases rest
      simp only [bind_eq_ok_iff] at rest
      obtain ⟨content, said, name, isUnreserved, _, isDescription, rest⟩ := rest
      cases rest
      obtain ⟨isText, isName⟩ := unreservedName_eq_ok isUnreserved
      exact ⟨isText, .inr isName, .other
        ⟨content, _, mapError_eq_ok_iff.mp said, isDescription⟩ (by decide) (by decide)⟩

/-- The place of a type among the described types is that of its name, its kind and its
description. -/
theorem outline_eq_ok {value : Json} {found : DescribedType × Outline}
    (given : Described.outline value = .ok found) :
    found.1.description = value ∧ value.member "name" = .ok (.text found.1.name) ∧
      (∃ word, value.get? "kind" = some word ∧ kindOfWord? word = some found.1.kind) ∧
      ((∃ type, Standard.type? found.1.name = some type) ∨ checkName found.1.name = .ok ()) ∧
      Outlines value found.1.kind found.2 := by
  obtain ⟨name, isName, rest⟩ := bind_eq_ok_iff.mp given
  split at rest
  · cases rest
  next word isWord =>
  obtain ⟨key, isKey, rest⟩ := bind_eq_ok_iff.mp rest
  obtain rfl := eq_of_asKey isKey
  split at rest
  · cases rest
  next kind isKind =>
  obtain ⟨⟨content, outline⟩, made, rest⟩ := bind_eq_ok_iff.mp rest
  cases rest
  obtain ⟨isText, isChecked, outlines⟩ := outlineOfKind_eq_ok made
  exact ⟨rfl, isText ▸ mapError_eq_ok_iff.mp isName, ⟨word, isWord, isKind⟩, isChecked, outlines⟩

/-- A type that a described type is resolved to is what it makes, with the description that it says,
unless it is a standard one. -/
theorem makes_of_typeDraft {value : Json} {found : DescribedType × Outline} {type : NamedType}
    (outlined : Described.outline value = .ok found)
    (given : typeDraft types found.1 found.2 = .ofType type)
    (ordinary : Standard.type? found.1.name = none) :
    type.name = found.1.name ∧ SaysText found.1.description "description" type.description ∧
      Makes types found.1 type.body := by
  obtain ⟨isValue, -, -, -, outlines⟩ := outline_eq_ok outlined
  obtain ⟨⟨typeName, kind, source⟩, outline⟩ := found
  obtain ⟨name, description, body⟩ := type
  simp only at isValue outlines ordinary given
  subst isValue
  cases outlines with
  | standard =>
      rw [standard_of_outline outlined] at ordinary
      cases ordinary
  | scalar isDescription said =>
      simp only [typeDraft, ordinary, TypeDraft.ofType, TypeDraft.mk.injEq] at given
      obtain ⟨rfl, rfl, sameBody⟩ := given
      cases body with
      | scalar =>
          cases sameBody
          exact ⟨rfl, isDescription, .scalar _ rfl said⟩
      | _ => cases sameBody
  | enum isDescription isSource collected made =>
      simp only [typeDraft, ordinary, TypeDraft.ofType, TypeDraft.mk.injEq] at given
      obtain ⟨rfl, rfl, sameBody⟩ := given
      cases body with
      | enum =>
          cases sameBody
          exact ⟨rfl, isDescription, .enum rfl isSource collected made⟩
      | _ => cases sameBody
  | other isDescription notScalar notEnum =>
      simp only [typeDraft, ordinary, TypeDraft.ofType, TypeDraft.mk.injEq] at given
      obtain ⟨rfl, rfl, sameBody⟩ := given
      refine ⟨rfl, isDescription, ?_⟩
      cases kind with
      | scalar => exact absurd rfl notScalar
      | enum => exact absurd rfl notEnum
      | object =>
          cases body with
          | object =>
              injection sameBody with implements holds
              exact .object rfl implements holds
          | _ => cases sameBody
      | interface =>
          cases body with
          | interface =>
              injection sameBody with implements holds
              exact .interface rfl implements holds
          | _ => cases sameBody
      | union =>
          cases body with
          | union =>
              injection sameBody with joins
              exact .union rfl joins
          | _ => cases sameBody
      | inputObject =>
          cases body with
          | inputObject =>
              injection sameBody with holds isFlag
              subst isFlag
              exact .inputObject rfl holds
          | _ => cases sameBody

/-- A described directive is what its parts make, where it can be worked out. -/
theorem directive_eq_ok {value : Json} {made : Directive}
    (given : Described.directive types value = .ok made) :
    ∃ args places elements parts checked,
      value.lookup "args" = .ok args ∧ arguments types args = .ok parts ∧
      checkedParts parts = .ok checked ∧ made.arguments = named checked ∧
      value.lookup "locations" = .ok places ∧ places.elements = .ok elements ∧
      locations made.name elements = .ok made.locations ∧
      value.member "name" = .ok (.text made.name) ∧ checkName made.name = .ok () ∧
      (value.get? "isRepeatable").getD (.boolean false) = .boolean made.isRepeatable ∧
      SaysText value "description" made.description ∧
      SaysText value "deprecationReason" made.deprecation := by
  obtain ⟨args, areArgs, rest⟩ := bind_eq_ok_iff.mp given
  split at rest
  · cases rest
  obtain ⟨places, arePlaces, rest⟩ := bind_eq_ok_iff.mp rest
  split at rest
  · cases rest
  simp only [ask, bind_eq_ok_iff, mapError_eq_ok_iff] at rest
  obtain ⟨member, isMember, description, descriptionSaid, reason, reasonSaid, elements, areElements,
    parts, collected, name, isChecked, known, areKnown, rest⟩ := rest
  obtain ⟨rfl, isName⟩ := checkedName_eq_ok isChecked
  split at rest
  · cases rest
  obtain ⟨checked, areChecked, rest⟩ := bind_eq_ok_iff.mp rest
  split at rest
  · next isRepeatable isFlag =>
      simp only [bind_eq_ok_iff, pure_eq_ok_iff] at rest
      obtain ⟨description?, isDescription, reason?, isReason, rfl⟩ := rest
      exact ⟨args, places, elements, parts, checked, mapError_eq_ok_iff.mp areArgs, collected,
        areChecked, rfl, mapError_eq_ok_iff.mp arePlaces, areElements, areKnown, isMember, isName,
        isFlag, ⟨description, _, descriptionSaid, isDescription⟩, ⟨reason, _, reasonSaid, isReason⟩⟩
  · cases rest

end Described

/-- Where the listed types and the draft itself lead to listed types only, and the type that
describes schemas is listed, a schema has the listed types and no others. -/
theorem Draft.eq_listed_of_closed {ε : Type} {draft : Draft ε} {listed types : List NamedType}
    (assembled : draft.assemble = .ok (draft.withTypes types))
    (known : draft.types = listed.map .ofType)
    (closed : ∀ type ∈ listed, ∀ name ∈ type.references, name ∈ listed.map NamedType.name)
    (own : ∀ name ∈ draft.ownReferences, name ∈ listed.map NamedType.name)
    (describes : Text.ofString "__Schema" ∈ listed.map NamedType.name) : types = listed := by
  obtain ⟨added, collected, -, nothing⟩ := draft.collect_of_closed known closed own
  rw [nothing describes, List.append_nil] at collected
  have becomes := assemble_of_collect collected
  rw [assembled] at becomes
  exact congrArg Schema.types (Except.ok.inj becomes)

/-- A schema that a description describes has, besides standard types, what the described types
make. It has nothing else where these lead to each other, and to the type that describes
schemas. -/
theorem ofIntrospection_eq_ok {result : Json} {schema : Schema}
    (described : ofIntrospection result = .ok schema) :
    ∃ members listing elements all outlines types listed,
      result.get? "__schema" = some (.object members) ∧
      (Json.object members).member "types" = .ok listing ∧ listing.elements = .ok elements ∧
      List.Forall₂ (fun value entry => Described.outline value = .ok entry) elements all ∧
      Named.ofList (fun outline => outline.1.name) all = outlines ∧
      outlines.map Prod.fst = types ∧
      List.Forall₂ (fun entry type =>
        Described.typeDraft types entry.1 entry.2 = .ofType type) outlines listed ∧
      Draft.Recollects listed schema.types ∧
      ((∀ type ∈ listed, ∀ name ∈ type.references, name ∈ listed.map NamedType.name) →
        Text.ofString "__Schema" ∈ listed.map NamedType.name → schema.types = listed) ∧
      Described.root types (.object members) "queryType" = .ok schema.query ∧
      Described.root types (.object members) "mutationType" = .ok schema.mutation ∧
      Described.root types (.object members) "subscriptionType" = .ok schema.subscription ∧
      Described.directives types (.object members) = .ok schema.directives ∧
      Described.SaysText (.object members) "description" schema.description := by
  unfold ofIntrospection at described
  split at described
  case h_2 => cases described
  next members isSchema =>
  simp only [bind_eq_ok_iff] at described
  obtain ⟨listing, isListing, elements, areElements, all, outlined, query, isQuery, mutation,
    isMutation, subscription, isSubscription, directives, areDirectives, content, said, description,
    isDescription, assembled⟩ := described
  generalize areOutlines : Named.ofList (fun outline => outline.1.name) all = outlines at *
  obtain ⟨listed, types, isListed, recollects, rfl⟩ := Draft.assemble_eq_ok assembled
  have drafts : List.Forall₂ (fun entry type => Described.typeDraft (outlines.map Prod.fst) entry.1
      entry.2 = .ofType type) outlines listed := by
    simp only at isListed
    rw [← List.forall₂_eq_eq_eq, List.forall₂_map_left_iff, List.forall₂_map_right_iff] at isListed
    exact isListed
  have sameNames : listed.map NamedType.name = (outlines.map Prod.fst).map DescribedType.name := by
    have names : List.Forall₂ (fun entry type => type.name = entry.1.name) outlines listed := by
      refine forall₂_trans_of_mem (List.forall₂_same.mpr fun _ _ => rfl) drafts ?_
      rintro entry mem _ type rfl isDraft
      obtain ⟨value, -, made⟩ := exists_of_mem_mapM outlined
        (Named.mem_of_mem_ofList (areOutlines ▸ mem))
      rw [← TypeDraft.name_ofType (ε := SchemaFault) type, ← isDraft, Described.name_typeDraft made]
    rw [List.map_map]
    exact map_eq_map_of_forall₂ names fun entry type sameName => sameName
  refine ⟨members, listing, elements, all, outlines, _, listed, isSchema,
    mapError_eq_ok_iff.mp isListing, mapError_eq_ok_iff.mp areElements, forall₂_of_mapM outlined,
    areOutlines, rfl, drafts, recollects, fun closed describes => ?_, isQuery, isMutation,
    isSubscription, areDirectives, content, _, mapError_eq_ok_iff.mp said, isDescription⟩
  refine Draft.eq_listed_of_closed assembled isListed closed (fun name mem => ?_) describes
  rw [sameNames]
  exact Described.listed_of_ownReferences mem isQuery isMutation isSubscription areDirectives

end SchemaOrder.Schema
