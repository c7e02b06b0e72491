import SchemaOrder.Proofs.Schema.Agreement
import SchemaOrder.Proofs.Schema.Describing
import SchemaOrder.Proofs.Schema.DescriptionParts
import SchemaOrder.Proofs.Schema.RearrangedDefaults

/-!
# Descriptions of schemas whose parts are in another order

A description holds the parts of a schema in lists, in the order of the schema. Two schemas that
agree but for order are therefore described by values that differ in the order of these lists alone,
and in that of fields in defaults, and either both of them can be described or neither can:
`Rearranges.introspection_matches` puts this together from the parts of a schema.
-/

namespace SchemaOrder.Schema

open Outcome

namespace Describe

/-- The members of a description that hold lists. -/
def listMembers : List String :=
  ["types", "directives", "locations", "args", "fields", "inputFields", "interfaces",
    "enumValues", "possibleTypes"]

mutual

/-- Descriptions that are the same but for the order of lists and, in the texts of defaults, for
the order of the fields of objects. -/
inductive Rearranged : Json → Json → Prop where
  | same (value : Json) : Rearranged value value
  | object {lefts rights : List (Text × Json)} (lengths : lefts.length = rights.length)
      (members : ∀ pair ∈ lefts.zip rights, RearrangedMember pair.1 pair.2) :
      Rearranged (.object lefts) (.object rights)

/-- Members of one name whose values are the same but for the order of lists and fields. -/
inductive RearrangedMember : Text × Json → Text × Json → Prop where
  | nested {name : Text} {left right : Json} (values : Rearranged left right) :
      RearrangedMember (name, left) (name, right)
  | listed {name : String} (isList : name ∈ listMembers) {lefts middle rights : List Json}
      (perm : lefts.Perm middle) (lengths : middle.length = rights.length)
      (items : ∀ pair ∈ middle.zip rights, Rearranged pair.1 pair.2) :
      RearrangedMember (Text.ofString name, .array lefts) (Text.ofString name, .array rights)
  | default {literal literal' : Document.Literal} (literals : literal.Rearranged literal') :
      RearrangedMember (Text.ofString "defaultValue", .text literal.write)
        (Text.ofString "defaultValue", .text literal'.write)

end

/-- Members named in the library that are the same but for the order of lists and fields. -/
def SameMember (left right : String × Json) : Prop :=
  RearrangedMember (Text.ofString left.1, left.2) (Text.ofString right.1, right.2)

/-- A member is the same as itself. -/
theorem SameMember.refl (member : String × Json) : SameMember member member :=
  .nested (.same member.2)

/-- Objects are the same but for order if their members are. -/
theorem Rearranged.of_members {lefts rights : List (String × Json)}
    (members : List.Forall₂ SameMember lefts rights) :
    Rearranged (Describe.object lefts) (Describe.object rights) := by
  have named : List.Forall₂ RearrangedMember
      (lefts.map fun member => (Text.ofString member.1, member.2))
      (rights.map fun member => (Text.ofString member.1, member.2)) :=
    List.forall₂_map_left_iff.mpr (List.forall₂_map_right_iff.mpr members)
  exact .object named.length_eq fun _ mem => List.forall₂_zip named mem

/-- Values that are the same but for order wherever lists stand. -/
def SameList (left right : Json) : Prop :=
  ∀ name ∈ listMembers, SameMember (name, left) (name, right)

/-- A value is the same as itself wherever lists stand. -/
theorem SameList.refl (value : Json) : SameList value value :=
  fun _ _ => .refl _

/-- Lists are the same but for order if their items are, in any order. -/
theorem SameList.of_items {lefts rights : List Json}
    (items : ∃ middle, lefts.Perm middle ∧ List.Forall₂ Rearranged middle rights) :
    SameList (.array lefts) (.array rights) := by
  obtain ⟨middle, perm, all⟩ := items
  exact fun name isList => .listed isList perm all.length_eq fun _ mem => List.forall₂_zip all mem

/-- Lists of the same values are the same but for order. -/
theorem SameList.of_perm {lefts rights : List Json} (perm : lefts.Perm rights) :
    SameList (.array lefts) (.array rights) :=
  .of_items ⟨rights, perm, List.forall₂_same.mpr fun value _ => .same value⟩

end Describe

/-- Arguments that differ in no more than an order are the same, since they have none. -/
theorem InputValue.Agrees.eq_of_rearranged {left right : InputValue}
    (agree : left.Agrees .rearranged right) : left = right := by
  obtain ⟨name, type, default, description, deprecation⟩ := left
  obtain ⟨name', type', default', description', deprecation'⟩ := right
  obtain ⟨rfl, rfl, defaults, rfl, rfl⟩ := agree
  obtain rfl : default = default' := by
    cases defaults with
    | none => rfl
    | some same => exact congrArg some same
  rfl

namespace SameInputs

open Describe

variable {left right : Schema} (same : SameInputs left right)
include same

/-- Arguments or input fields are described for both schemas or for neither. -/
theorem inputValue_matches (input : InputValue) :
    Matches Rearranged (inputValue left input) (inputValue right input) := by
  refine ((same.defaultText_matches input).mapError DescriptionFault.default
    DescriptionFault.default).bind fun written written' related => ?_
  rw [reference_congr same.kind?]
  refine .ok (.of_members (.cons (.refl _) (.cons (.refl _) (.cons (.refl _) (.cons ?_
    (List.forall₂_same.mpr fun _ _ => .refl _))))))
  cases related with
  | none => exact .refl _
  | some texts =>
      obtain ⟨literal, literal', literals, rfl, rfl⟩ := texts
      exact .default literals

/-- Lists of arguments or input fields are described for both schemas or for neither, in any
order. -/
theorem inputValues_matches {inputs inputs' : List InputValue}
    (related : Arrangement.anyOrder.Relates (InputValue.Agrees .rearranged) inputs inputs') :
    Matches SameList (inputValues left inputs) (inputValues right inputs') := by
  refine (Matches.mapM_anyOrder ?_ related).bind fun _ _ items => .ok (.of_items items)
  intro input input' agree
  rw [agree.eq_of_rearranged]
  exact same.inputValue_matches input'

/-- Fields are described for both schemas or for neither. -/
theorem field_matches {listed listed' : Field} (agree : listed.Agrees .rearranged listed') :
    Matches Rearranged (field left listed) (field right listed') := by
  refine (same.inputValues_matches agree.arguments).bind fun _ _ arguments => ?_
  rw [agree.name, agree.type, agree.description, agree.deprecation, reference_congr same.kind?]
  exact .ok (.of_members (.cons (.refl _) (.cons (.refl _) (.cons (arguments _ (by decide))
    (.cons (.refl _) (List.forall₂_same.mpr fun _ _ => .refl _))))))

/-- Lists of fields are described for both schemas or for neither, in any order. -/
theorem fields_matches {listed listed' : List Field}
    (related : Arrangement.anyOrder.Relates (Field.Agrees .rearranged) listed listed') :
    Matches SameList (fields left listed) (fields right listed') := by
  refine (Matches.mapM_anyOrder ?_ related).bind fun _ _ items => .ok (.of_items items)
  exact fun _ _ agree => same.field_matches agree

/-- Directives are described for both schemas or for neither. -/
theorem directive_matches {listed listed' : Directive}
    (agree : listed.Agrees .rearranged listed') :
    Matches Rearranged (directive left listed) (directive right listed') := by
  refine (same.inputValues_matches agree.arguments).bind fun _ _ arguments => ?_
  have locations : SameList (Json.ofTexts listed.locations) (Json.ofTexts listed'.locations) :=
    .of_perm ((Arrangement.Relates.anyOrder_eq_iff_perm.mp agree.locations).map _)
  rw [agree.name, agree.description, agree.isRepeatable, agree.deprecation]
  exact .ok (.of_members (.cons (.refl _) (.cons (.refl _) (.cons (.refl _) (.cons (.refl _)
    (.cons (.refl _) (.cons (locations _ (by decide)) (.cons (arguments _ (by decide)) .nil))))))))

/-- Names of types are described in the same way, in any order. -/
theorem names_sameList {listed listed' : List Text} (perm : listed.Perm listed') :
    SameList (names left listed) (names right listed') := by
  rw [names_congr same.kind?]
  exact .of_perm (perm.map _)

/-- The fields of bodies are described for both schemas or for neither. -/
theorem bodyFields_matches {body body' : Body} (agree : body.Agrees .rearranged body') :
    Matches SameList (bodyFields left body) (bodyFields right body') := by
  cases agree with
  | object _ sameFields | interface _ sameFields => exact same.fields_matches sameFields
  | scalar | union | enum | inputObject => exact .ok (.refl .null)

/-- The input fields of bodies are described for both schemas or for neither. -/
theorem bodyInputs_matches {body body' : Body} (agree : body.Agrees .rearranged body') :
    Matches SameList (bodyInputs left body) (bodyInputs right body') := by
  cases agree with
  | inputObject sameFields => exact same.inputValues_matches sameFields
  | scalar | object | interface | union | enum => exact .ok (.refl .null)

/-- The interfaces of bodies are described in the same way, in any order. -/
theorem bodyInterfaces_sameList {body body' : Body} (agree : body.Agrees .rearranged body') :
    SameList (bodyInterfaces left body) (bodyInterfaces right body') := by
  cases agree with
  | object sameInterfaces | interface sameInterfaces =>
      exact same.names_sameList (Arrangement.Relates.anyOrder_eq_iff_perm.mp sameInterfaces)
  | scalar | union | enum | inputObject => exact .refl .null

end SameInputs

/-- The values of bodies are described in the same way, in any order. -/
theorem Body.Agrees.bodyValues_sameList {body body' : Body}
    (agree : body.Agrees .rearranged body') :
    Describe.SameList (Describe.bodyValues body) (Describe.bodyValues body') := by
  cases agree with
  | enum sameValues =>
      exact .of_perm ((Arrangement.Relates.anyOrder_eq_iff_perm.mp sameValues).map _)
  | scalar | object | interface | union | inputObject => exact .refl .null

/-- Where it is said how values are written is the same. -/
theorem Body.Agrees.bodyAddress_eq {body body' : Body} (agree : body.Agrees .rearranged body') :
    Describe.bodyAddress body = Describe.bodyAddress body' := by
  cases agree <;> rfl

/-- Two schemas that hold the same things in any order. What validation found and what the index
holds beside the types is not compared. -/
structure Rearranges (left right : Schema) : Prop where
  inputs : SameInputs left right
  description : left.description = right.description
  query : left.query = right.query
  mutation : left.mutation = right.mutation
  subscription : left.subscription = right.subscription
  directives : Arrangement.anyOrder.Relates (Directive.Agrees .rearranged)
    left.directives right.directives
  types : Arrangement.anyOrder.Relates (NamedType.Agrees .rearranged) left.types right.types

namespace Rearranges

open Describe

variable {left right : Schema} (rearranges : left.Rearranges right)
include rearranges

/-- The same objects implement an interface, in any order. -/
theorem implementingObjects_perm (name : Text) :
    (left.implementingObjects name).Perm (right.implementingObjects name) := by
  refine rearranges.types.flatMap_perm _ ?_
  intro type type' agree
  obtain ⟨ownName, description, body⟩ := type
  obtain ⟨ownName', description', body'⟩ := type'
  obtain ⟨rfl, -, bodies, -⟩ := agree
  cases bodies with
  | object sameInterfaces =>
      exact ((Arrangement.Relates.anyOrder_eq_iff_perm.mp sameInterfaces).filter _).map _
  | scalar | interface | union | enum | inputObject => exact .refl _

/-- The types that values of a type are of are described in the same way, in any order. -/
theorem possibleTypes_sameList {type type' : NamedType}
    (agree : type.Agrees .rearranged type') :
    SameList (possibleTypes left type) (possibleTypes right type') := by
  obtain ⟨name, description, body⟩ := type
  obtain ⟨name', description', body'⟩ := type'
  obtain ⟨rfl, -, bodies, -⟩ := agree
  cases bodies with
  | union sameMembers =>
      exact rearranges.inputs.names_sameList
        (Arrangement.Relates.anyOrder_eq_iff_perm.mp sameMembers)
  | interface => exact rearranges.inputs.names_sameList (rearranges.implementingObjects_perm name)
  | scalar | object | enum | inputObject => exact .refl .null

/-- Types are described for both schemas or for neither. -/
theorem namedType_matches {type type' : NamedType} (agree : type.Agrees .rearranged type')
    (flag : Json) :
    Matches Rearranged (namedType left type flag) (namedType right type' flag) := by
  rw [namedType_eq, namedType_eq]
  refine (rearranges.inputs.bodyFields_matches agree.body).bind fun _ _ fields => ?_
  refine (rearranges.inputs.bodyInputs_matches agree.body).bind fun _ _ inputs => ?_
  have interfaces := rearranges.inputs.bodyInterfaces_sameList agree.body
  have values := agree.body.bodyValues_sameList
  have possible := rearranges.possibleTypes_sameList agree
  unfold typeMembers
  rw [agree.kind, agree.name, agree.description, agree.body.bodyAddress_eq]
  exact .ok (.of_members (.cons (.refl _) (.cons (.refl _) (.cons (.refl _) (.cons (.refl _)
    (.cons (.refl _) (.cons (fields _ (by decide)) (.cons (inputs _ (by decide))
    (.cons (interfaces _ (by decide)) (.cons (values _ (by decide))
    (.cons (possible _ (by decide)) .nil)))))))))))

/-- Schemas that hold the same things in any order are described together, and their descriptions
are the same but for order, if validation has nothing to say of either or something of both. -/
theorem introspection_matches (leftIndex : left.index = left.types.map .defined)
    (rightIndex : right.index = right.types.map .defined)
    (verdict : left.validationMessages = [] ↔ right.validationMessages = []) :
    Matches Rearranged left.introspection right.introspection := by
  have typesOf : ∀ types : List NamedType,
      (types.map Entry.defined).mapM typeOf = .ok types := by
    intro types
    induction types with
    | nil => rfl
    | cons type others inductionHypothesis =>
        rw [List.map_cons, List.mapM_cons, inductionHypothesis]
        rfl
  unfold introspection
  rw [leftIndex, rightIndex, typesOf, typesOf, rearranges.description, rearranges.query,
    rearranges.mutation, rearranges.subscription]
  by_cases valid : left.validationMessages = []
  · simp only [valid, verdict.mp valid, List.isEmpty_nil, Bool.not_true, Bool.false_eq_true,
      if_false]
    split
    · exact .error _ _
    have flag : ∀ type type' : NamedType, type.Agrees .rearranged type' →
        Matches Eq (oneOf type) (oneOf type') :=
      fun _ _ agree => .of_sameResult (oneOf_sameResult agree)
    have directive : ∀ described described' : Directive, described.Agrees .rearranged described' →
        Matches Rearranged (directive left described) (directive right described') :=
      fun _ _ agree => rearranges.inputs.directive_matches agree
    have type : ∀ entry entry' : NamedType × Json,
        entry.1.Agrees .rearranged entry'.1 ∧ entry.2 = entry'.2 →
          Matches Rearranged (namedType left entry.1 entry.2)
            (namedType right entry'.1 entry'.2) := by
      rintro ⟨type, flag⟩ ⟨type', _⟩ ⟨agree, rfl⟩
      exact rearranges.namedType_matches agree flag
    refine (Matches.mapM_anyOrder_beside flag rearranges.types).bind fun _ _ flags => ?_
    refine (Matches.mapM_anyOrder directive rearranges.directives).bind fun _ _ directives => ?_
    refine (Matches.mapM_anyOrder type flags).bind fun _ _ types => ?_
    refine .ok (.of_members (.cons (.nested (.of_members ?_)) .nil))
    rw [root_congr rearranges.inputs.kind?, root_congr rearranges.inputs.kind?,
      root_congr rearranges.inputs.kind?]
    exact .cons (.refl _) (.cons (.refl _) (.cons (.refl _) (.cons (.refl _)
      (.cons (SameList.of_items types _ (by decide))
      (.cons (SameList.of_items directives _ (by decide)) .nil)))))
  · have invalid : ∀ {messages : List Text}, messages ≠ [] → (!messages.isEmpty) = true := by
      simp
    simp only [invalid valid, invalid (mt verdict.mpr valid), if_true]
    exact .error _ _

end Rearranges

end SchemaOrder.Schema
