import SchemaOrder.Proofs.Outcome
import SchemaOrder.Proofs.Schema.Agreement
import SchemaOrder.Proofs.Schema.Closure
import SchemaOrder.Schema.Default

/-!
# Defaults of schemas that mirror each other

A default is written in the order of the fields of its type, not in the order in which it
holds its own. Two schemas with the same input fields under the names that a default leads to, in
the same order, therefore write values alike that are the same when objects are read as mappings,
if they can write them at all: every lemma here carries `WritesSame` from parts of values to values,
and `defaultText_sameResult` to arguments and input fields. Schemas that mirror each other have the
same input fields under all names. Only the words of a failure may show a value as it is held.
-/

namespace SchemaOrder

/-- What a reference refers to has the same name where null is admitted. -/
theorem TypeReference.base_nullable (type : TypeReference) : type.nullable.base = type.base := by
  cases type <;> rfl

namespace Schema

open Outcome

/-- Types that agree are of one kind. -/
theorem NamedType.Agrees.kind {closeness : Closeness} {left right : NamedType}
    (agree : left.Agrees closeness right) : left.kind = right.kind := by
  have body := agree.body
  unfold NamedType.kind
  generalize left.body = leftBody, right.body = rightBody at body ⊢
  cases body <;> rfl

/-- Input fields of the same names and types. -/
def SameInputFields (lefts rights : List InputValue) : Prop :=
  List.Forall₂ (fun left right => left.name = right.name ∧ left.type = right.type) lefts rights

/-- Two schemas in which some names lead to types of one kind, and to the same input fields, whose
types have such names, too. -/
structure WritesUnder (known : Text → Prop) (left right : Schema) : Prop where
  kind? : ∀ name, known name → left.kind? name = right.kind? name
  inputFields : ∀ name, known name →
    SameInputFields (left.inputFields name) (right.inputFields name)
  closed : ∀ name, known name → ∀ field ∈ left.inputFields name, known field.type.base

/-- The field of an object that is to be written under a name. -/
theorem find?_heldFields (schema : Schema) (name : Text) (fields : List (Text × Value)) :
    Named.find? HeldField.name name (schema.heldFields fields) =
      (Value.lookup name fields).map fun value => ⟨name, schema.defaultLiteral value⟩ := by
  induction fields with
  | nil => rfl
  | cons head tail inductionHypothesis =>
      obtain ⟨known, value⟩ := head
      simp only [heldFields, Named.find?, Value.lookup, List.find?_cons] at inductionHypothesis ⊢
      by_cases sameName : known = name
      · simp [sameName]
      · simpa [sameName] using inductionHypothesis

namespace WritesUnder

variable {known : Text → Prop} {left right : Schema}

/-- Two values are written in the same way, whatever the type is, if it has a known name. -/
def WritesSame (known : Text → Prop) (left right : Schema) (first second : Value) : Prop :=
  ∀ type : TypeReference, known type.base →
    SameResult (left.defaultLiteral first type) (right.defaultLiteral second type)

/-- The items of lists are written in the same way, if each of them is. -/
theorem itemLiterals_sameResult {firsts seconds : List Value}
    (items : List.Forall₂ (WritesSame known left right) firsts seconds) {type : TypeReference}
    (isKnown : known type.base) :
    SameResult (left.itemLiterals firsts type) (right.itemLiterals seconds type) := by
  induction items with
  | nil => exact .refl _
  | cons head _ inductionHypothesis =>
      simp only [itemLiterals]
      exact (head type isKnown).bind fun _ => inductionHypothesis.bind fun _ => .refl _

/-- The fields of objects are written in the same way in the order of their type, if under
every name the same is written. -/
theorem fieldLiterals_sameResult {firsts seconds : List (Text × Value)}
    (values : ∀ name, Option.Rel (WritesSame known left right) (Value.lookup name firsts)
      (Value.lookup name seconds))
    {fields fields' : List InputValue} (same : SameInputFields fields fields')
    (closed : ∀ field ∈ fields, known field.type.base) :
    SameResult (fieldLiterals (left.heldFields firsts) fields)
      (fieldLiterals (right.heldFields seconds) fields') := by
  unfold fieldLiterals
  refine (SameResult.mapM (forall₂_imp_of_mem same closed ?_)).bind fun _ => .refl _
  rintro field field' isKnown ⟨sameName, sameType⟩
  have under := values field.name
  rw [find?_heldFields, find?_heldFields, ← sameName, ← sameType]
  generalize Value.lookup field.name firsts = first?,
    Value.lookup field.name seconds = second? at under ⊢
  cases under with
  | none => exact .refl _
  | some same => exact (same field.type isKnown).bind fun _ => .refl _

variable (under : WritesUnder known left right)
include under

/-- A value that is no part of another one is written in the same way. -/
theorem leafLiteral_eq {name : Text} (isKnown : known name) (value : Value) :
    left.leafLiteral name value = right.leafLiteral name value := by
  unfold leafLiteral
  rw [under.kind? name isKnown]

/-- Lists are written in the same way, if their items are. -/
theorem writesSame_list {firsts seconds : List Value}
    (items : List.Forall₂ (WritesSame known left right) firsts seconds) :
    WritesSame known left right (.list firsts) (.list seconds) := by
  intro type isKnown
  simp only [defaultLiteral]
  rw [← type.base_nullable] at isKnown
  have leaf : SameResult (left.leafLiteral type.nullable.base (.list firsts))
      (right.leafLiteral type.nullable.base (.list seconds)) := by
    unfold leafLiteral
    rw [under.kind? _ isKnown]
    cases right.kind? type.nullable.base with
    | none => rfl
    | some kind => cases kind <;> rfl
  cases isNullable : type.nullable with
  | list item =>
      have itemKnown : known item.base := by
        rw [isNullable] at isKnown
        exact isKnown
      exact (itemLiterals_sameResult items itemKnown).bind fun _ => .refl _
  | named name | nonNull inner =>
      rw [isNullable] at leaf
      exact leaf

/-- Objects are written in the same way, if under every name the same is written. -/
theorem writesSame_object {firsts seconds : List (Text × Value)}
    (values : ∀ name, Option.Rel (WritesSame known left right) (Value.lookup name firsts)
      (Value.lookup name seconds)) :
    WritesSame known left right (.object firsts) (.object seconds) := by
  intro type isKnown
  simp only [defaultLiteral]
  rw [under.kind? _ isKnown]
  have leaf : SameResult (left.leafLiteral type.base (.object firsts))
      (right.leafLiteral type.base (.object seconds)) := by
    unfold leafLiteral
    rw [under.kind? _ isKnown]
    cases right.kind? type.base with
    | none => rfl
    | some kind => cases kind <;> rfl
  cases right.kind? type.base with
  | none => exact leaf
  | some kind =>
      cases kind with
      | inputObject =>
          exact (fieldLiterals_sameResult values (under.inputFields _ isKnown)
            (under.closed _ isKnown)).bind fun _ => .refl _
      | scalar | object | interface | union | enum => exact leaf

end WritesUnder

namespace WritesUnder

variable {known : Text → Prop} {left right : Schema}

mutual

/-- A value is written in the same way for both schemas. -/
theorem writesSame_self (under : WritesUnder known left right) :
    ∀ value, WritesSame known left right value value
  | .null => fun _ _ => .refl _
  | .unbound => fun _ _ => .refl _
  | .boolean value => fun type isKnown => by
      simp only [defaultLiteral]
      rw [under.leafLiteral_eq isKnown]
      exact .refl _
  | .integer value => fun type isKnown => by
      simp only [defaultLiteral]
      rw [under.leafLiteral_eq isKnown]
      exact .refl _
  | .float value => fun type isKnown => by
      simp only [defaultLiteral]
      rw [under.leafLiteral_eq isKnown]
      exact .refl _
  | .text value => fun type isKnown => by
      simp only [defaultLiteral]
      rw [under.leafLiteral_eq isKnown]
      exact .refl _
  | .list items => under.writesSame_list (items_writeSame_self under items)
  | .object fields => under.writesSame_object (fields_writeSame_self under fields)

/-- Items are written in the same way for both schemas. -/
theorem items_writeSame_self (under : WritesUnder known left right) :
    ∀ items, List.Forall₂ (WritesSame known left right) items items
  | [] => .nil
  | item :: rest => .cons (writesSame_self under item) (items_writeSame_self under rest)

/-- What stands under a name is written in the same way for both schemas. -/
theorem fields_writeSame_self (under : WritesUnder known left right) :
    ∀ (fields : List (Text × Value)) name, Option.Rel (WritesSame known left right)
      (Value.lookup name fields) (Value.lookup name fields)
  | [], _ => .none
  | (other, value) :: rest, name => by
      have inRest := fields_writeSame_self under rest name
      have atHead := writesSame_self under value
      simp only [Value.lookup, Named.find?, List.find?_cons] at inRest ⊢
      by_cases sameName : other = name
      · simpa [sameName] using Option.Rel.some atHead
      · simpa [sameName] using inRest

end

/-- Values that are the same when objects are read as mappings are written in the same way. -/
theorem writesSame_of_alike (under : WritesUnder known left right) {first second : Value}
    (alike : first.Alike second) :
    WritesSame known left right first second := by
  induction alike with
  | same value => exact under.writesSame_self value
  | list lengths _ inductionHypothesis =>
      exact under.writesSame_list
        (List.forall₂_iff_zip.mpr ⟨lengths, fun mem => inductionHypothesis _ mem⟩)
  | object names _ inductionHypothesis =>
      apply under.writesSame_object
      intro name
      have both := names name
      cases atLeft : Value.lookup name _ <;> cases atRight : Value.lookup name _ <;>
        rw [atLeft, atRight] at both <;> cases both
      · exact .none
      · exact .some (inductionHypothesis name _ _ atLeft atRight)

/-- Arguments or input fields that agree have the same text for their default. -/
theorem defaultText_sameResult (under : WritesUnder known left right) {input input' : InputValue}
    (isKnown : known input.type.base) (agree : input.Agrees .mirrored input') :
    SameResult (left.defaultText input) (right.defaultText input') := by
  have defaults := agree.default
  unfold defaultText
  rw [← agree.type]
  generalize input.default? = first?, input'.default? = second? at defaults ⊢
  cases defaults with
  | none => exact .refl _
  | some alike =>
      exact (under.writesSame_of_alike alike input.type isKnown).bind fun _ => .refl _

end WritesUnder

namespace Mirrors

variable {left right : Schema} (mirrors : left.Mirrors right)
include mirrors

/-- Names lead to types that agree. -/
theorem type? (name : Text) :
    Option.Rel (NamedType.Agrees .mirrored) (left.type? name) (right.type? name) :=
  Arrangement.Relates.find? _ mirrors.types fun _ _ agree => by rw [agree.name]

/-- Names lead to types of one kind. -/
theorem kind? (name : Text) : left.kind? name = right.kind? name := by
  have types := mirrors.type? name
  unfold Schema.kind?
  generalize left.type? name = leftType, right.type? name = rightType at types ⊢
  cases types with
  | none => rfl
  | some agree => exact congrArg some agree.kind

/-- Names lead to the same input fields. -/
theorem inputFields (name : Text) :
    SameInputFields (left.inputFields name) (right.inputFields name) := by
  have types := mirrors.type? name
  unfold Schema.inputFields
  generalize left.type? name = leftType, right.type? name = rightType at types ⊢
  cases types with
  | none => exact .nil
  | @some first second agree =>
      have body := agree.body
      simp only [Option.map_some]
      generalize first.body = leftBody, second.body = rightBody at body ⊢
      cases body with
      | inputObject sameFields =>
          exact sameFields.imp fun _ _ agree => ⟨agree.name, agree.type⟩
      | scalar | object | interface | union | enum => exact .nil

/-- Schemas that mirror each other write the same under all names. -/
theorem writesUnder : WritesUnder (fun _ => True) left right :=
  ⟨fun name _ => mirrors.kind? name, fun name _ => mirrors.inputFields name,
    fun _ _ _ _ => trivial⟩

/-- Arguments or input fields that agree have the same text for their default. -/
theorem defaultText_sameResult {input input' : InputValue}
    (agree : input.Agrees .mirrored input') :
    SameResult (left.defaultText input) (right.defaultText input') :=
  mirrors.writesUnder.defaultText_sameResult trivial agree

end Mirrors

end Schema

end SchemaOrder
