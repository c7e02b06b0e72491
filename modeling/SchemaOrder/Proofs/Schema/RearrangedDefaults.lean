import SchemaOrder.Proofs.Document.DefinitionParts
import SchemaOrder.Proofs.Matching
import SchemaOrder.Proofs.Schema.Defaults

/-!
# Defaults of schemas whose input fields are in another order

A default is written in the order of the input fields of its type. Two schemas that differ in this
order alone therefore write the same default with the fields of its objects in another order, and
either both of them can write it or neither can: `SameInputs.defaultText_matches` puts this
together from the parts of a value. What is written differs in nothing that reading would look at.
-/

namespace SchemaOrder

open Schema Outcome

namespace Document.Literal

/-- Literals that are the same but for the order of the fields of objects in them. -/
inductive Rearranged : Literal → Literal → Prop where
  | same (literal : Literal) : Rearranged literal literal
  | list {lefts rights : List Literal} (lengths : lefts.length = rights.length)
      (items : ∀ pair ∈ lefts.zip rights, Rearranged pair.1 pair.2) :
      Rearranged (.list lefts) (.list rights)
  | object {lefts middle rights : List (Text × Literal)} (perm : lefts.Perm middle)
      (lengths : middle.length = rights.length)
      (names : ∀ pair ∈ middle.zip rights, pair.1.1 = pair.2.1)
      (values : ∀ pair ∈ middle.zip rights, Rearranged pair.1.2 pair.2.2) :
      Rearranged (.object lefts) (.object rights)

/-- Fields of the same name whose literals are the same but for the order of fields. -/
def SameField (left right : Text × Literal) : Prop :=
  left.1 = right.1 ∧ Rearranged left.2 right.2

namespace Rearranged

/-- Lists are the same if their items are. -/
theorem of_items {lefts rights : List Literal} (items : List.Forall₂ Rearranged lefts rights) :
    Rearranged (.list lefts) (.list rights) :=
  .list items.length_eq fun _ mem => List.forall₂_zip items mem

/-- Objects are the same if their fields are, in any order. -/
theorem of_fields {lefts rights : List (Text × Literal)}
    (fields : ∃ middle, lefts.Perm middle ∧ List.Forall₂ SameField middle rights) :
    Rearranged (.object lefts) (.object rights) := by
  obtain ⟨middle, perm, all⟩ := fields
  exact .object perm all.length_eq (fun _ mem => (List.forall₂_zip all mem).1)
    fun _ mem => (List.forall₂_zip all mem).2

/-- Everything in a list has something beside it in another one of the same length. -/
theorem exists_beside {α β : Type} {lefts : List α} {rights : List β}
    (lengths : lefts.length = rights.length) {right : β} (mem : right ∈ rights) :
    ∃ left ∈ lefts, (left, right) ∈ lefts.zip rights := by
  obtain ⟨index, bound, rfl⟩ := List.getElem_of_mem mem
  have inLefts : index < lefts.length := lengths ▸ bound
  have inZip : index < (lefts.zip rights).length := by
    simpa [lengths] using bound
  refine ⟨lefts[index], List.getElem_mem inLefts, ?_⟩
  simpa using List.getElem_mem inZip

/-- A literal can be read in any order of the fields of its objects. -/
theorem isReadable {left right : Literal} (related : Rearranged left right)
    (readable : left.IsReadable) : right.IsReadable := by
  induction related with
  | same => exact readable
  | list lengths _ inductionHypothesis =>
      cases readable with
      | list readable =>
          refine .list fun item mem => ?_
          obtain ⟨other, otherMem, beside⟩ := exists_beside lengths mem
          exact inductionHypothesis _ beside (readable other otherMem)
  | object perm lengths names _ inductionHypothesis =>
      cases readable with
      | object areNames readable =>
          refine .object (fun field mem => ?_) fun field mem => ?_
          all_goals obtain ⟨other, otherMem, beside⟩ := exists_beside lengths mem
          · exact names _ beside ▸ areNames other (perm.mem_iff.mpr otherMem)
          · exact inductionHypothesis _ beside (readable other (perm.mem_iff.mpr otherMem))

end Rearranged

end Document.Literal

namespace Schema

open Document (Literal)
open Document.Literal (Rearranged SameField)

/-- A field of the type of an object as it is written, if the object has it and it is written. -/
def heldLiteral (held : List HeldField) (field : InputValue) :
    Except DefaultFault (Option (Text × Literal)) :=
  match Named.find? HeldField.name field.name held with
  | none => .ok none
  | some given => do
    return (← given.write field.type).map fun literal => (field.name, literal)

/-- The fields of an object are written one by one. -/
theorem fieldLiterals_eq (held : List HeldField) (known : List InputValue) :
    fieldLiterals held known = (known.mapM (heldLiteral held)).map (List.filterMap id) :=
  rfl

/-- Two schemas whose names lead to types of one kind, and to the same input fields in any order. -/
structure SameInputs (left right : Schema) : Prop where
  kind? : ∀ name, left.kind? name = right.kind? name
  inputFields : ∀ name, (left.inputFields name).Perm (right.inputFields name)

namespace SameInputs

variable {left right : Schema} (same : SameInputs left right)
include same

/-- A value that is no part of another one is written in the same way. -/
theorem leafLiteral_eq (name : Text) (value : Value) :
    left.leafLiteral name value = right.leafLiteral name value := by
  unfold leafLiteral
  rw [same.kind? name]

/-- A value of a type that is no input object is written in the same way. -/
theorem leafLiteral_matches (name : Text) (value : Value) :
    Matches (Option.Rel Rearranged) (left.leafLiteral name value)
      (right.leafLiteral name value) := by
  rw [same.leafLiteral_eq]
  refine (Matches.refl _).imp ?_
  rintro (_ | literal) _ rfl
  · exact .none
  · exact .some (.same literal)

/-- The fields of an object are written in the orders of the two types, each in the same way. -/
theorem fieldLiterals_matches {fields : List (Text × Value)}
    (values : ∀ name value, Value.lookup name fields = some value → ∀ type,
      Matches (Option.Rel Rearranged) (left.defaultLiteral value type)
        (right.defaultLiteral value type)) (name : Text) :
    Matches (fun lefts rights => ∃ middle, lefts.Perm middle ∧
        List.Forall₂ SameField middle rights)
      (fieldLiterals (left.heldFields fields) (left.inputFields name))
      (fieldLiterals (right.heldFields fields) (right.inputFields name)) := by
  rw [fieldLiterals_eq, fieldLiterals_eq]
  have known : ∃ middle, (left.inputFields name).Perm middle ∧
      List.Forall₂ Eq middle (right.inputFields name) :=
    ⟨_, same.inputFields name, List.forall₂_same.mpr fun _ _ => rfl⟩
  have each : ∀ field field', field = field' → Matches (Option.Rel SameField)
      (heldLiteral (left.heldFields fields) field)
      (heldLiteral (right.heldFields fields) field') := by
    rintro field _ rfl
    unfold heldLiteral
    rw [find?_heldFields, find?_heldFields]
    cases found : Value.lookup field.name fields with
    | none => exact .ok .none
    | some value =>
        refine (values field.name value found field.type).bind ?_
        rintro _ _ (related | _)
        · exact .ok (.some ⟨rfl, related⟩)
        · exact .ok .none
  refine (Matches.mapM_anyOrder each known).map ?_
  rintro lefts rights ⟨middle, perm, all⟩
  refine ⟨middle.filterMap id, perm.filterMap id, ?_⟩
  clear perm
  induction all with
  | nil => exact .nil
  | cons head _ inductionHypothesis =>
      cases head with
      | none => simpa using inductionHypothesis
      | some sameField => simpa using List.Forall₂.cons sameField inductionHypothesis

end SameInputs

namespace SameInputs

variable {left right : Schema}

mutual

/-- A default is written for both schemas or for neither, the same but for the order of the fields
of objects. -/
theorem defaultLiteral_matches (same : SameInputs left right) : ∀ value type,
    Matches (Option.Rel Rearranged) (left.defaultLiteral value type)
      (right.defaultLiteral value type)
  | .null, type => by
      simp only [defaultLiteral]
      split
      · exact .ok .none
      · exact .ok (.some (.same .null))
  | .unbound, _ => .ok .none
  | .boolean value, type => by
      simpa only [defaultLiteral] using same.leafLiteral_matches type.base (.boolean value)
  | .integer value, type => by
      simpa only [defaultLiteral] using same.leafLiteral_matches type.base (.integer value)
  | .float value, type => by
      simpa only [defaultLiteral] using same.leafLiteral_matches type.base (.float value)
  | .text value, type => by
      simpa only [defaultLiteral] using same.leafLiteral_matches type.base (.text value)
  | .list items, type => by
      simp only [defaultLiteral]
      cases type.nullable with
      | list item =>
          exact (itemLiterals_matches same items item).bind fun _ _ all =>
            .ok (.some (.of_items all))
      | named name => exact same.leafLiteral_matches name (.list items)
      | nonNull inner => exact same.leafLiteral_matches inner.base (.list items)
  | .object fields, type => by
      simp only [defaultLiteral]
      rw [same.kind? type.base]
      have leaf := same.leafLiteral_matches type.base (.object fields)
      cases right.kind? type.base with
      | none => exact leaf
      | some kind =>
          cases kind with
          | inputObject =>
              exact (same.fieldLiterals_matches (lookup_matches same fields) type.base).bind
                fun _ _ all => .ok (.some (.of_fields all))
          | scalar | object | interface | union | enum => exact leaf

/-- The items of a list are written for both schemas or for neither. -/
theorem itemLiterals_matches (same : SameInputs left right) : ∀ items type,
    Matches (List.Forall₂ Rearranged) (left.itemLiterals items type)
      (right.itemLiterals items type)
  | [], _ => .ok .nil
  | item :: rest, type => by
      simp only [itemLiterals]
      refine (defaultLiteral_matches same item type).bind fun _ _ first => ?_
      refine (itemLiterals_matches same rest type).bind fun _ _ others => .ok ?_
      cases first with
      | none => simpa using others
      | some related => simpa using List.Forall₂.cons related others

/-- What stands under a name is written for both schemas or for neither. -/
theorem lookup_matches (same : SameInputs left right) : ∀ (fields : List (Text × Value)) name value,
    Value.lookup name fields = some value → ∀ type,
      Matches (Option.Rel Rearranged) (left.defaultLiteral value type)
        (right.defaultLiteral value type)
  | [], _, _, found => by cases found
  | (known, value) :: rest, name, other, found => by
      have atHead := defaultLiteral_matches same value
      have inRest := lookup_matches same rest name other
      simp only [Value.lookup, Named.find?, List.find?_cons] at found inRest
      by_cases sameName : known = name
      · simp only [sameName, decide_true, Option.map_some, Option.some.injEq] at found
        exact found ▸ atHead
      · simp only [sameName, decide_false] at found
        exact inRest found

end

variable (same : SameInputs left right)
include same

/-- The default of an argument or an input field is written for both schemas or for neither, and
its two texts are those of literals that are the same but for the order of fields. -/
theorem defaultText_matches (input : InputValue) :
    Matches (Option.Rel fun text text' => ∃ literal literal', Rearranged literal literal' ∧
        text = literal.write ∧ text' = literal'.write)
      (left.defaultText input) (right.defaultText input) := by
  unfold defaultText
  cases input.default? with
  | none => exact .ok .none
  | some value =>
      refine (same.defaultLiteral_matches value input.type).bind ?_
      rintro _ _ (related | _)
      · exact .ok (.some ⟨_, _, related, rfl, rfl⟩)
      · exact .ok .none

/-- Where one schema writes a literal for a default, the other one does so too, and they are the
same but for the order of fields. -/
theorem exists_writtenDefault {input : InputValue} {literal : Literal}
    (written : right.writtenDefault input = some literal) :
    ∃ other, left.writtenDefault input = some other ∧ Rearranged other literal := by
  unfold writtenDefault at written ⊢
  cases given : input.default? with
  | none => simp [given] at written
  | some value =>
      simp only [given] at written
      have matched := same.defaultLiteral_matches value input.type
      dsimp only
      generalize left.defaultLiteral value input.type = first,
        right.defaultLiteral value input.type = second at matched written ⊢
      cases matched with
      | error => cases written
      | ok related =>
          cases related with
          | none => cases written
          | some related =>
              cases written
              exact ⟨_, rfl, related⟩

/-- A default that can be read as one schema writes it can be read as the other one does. -/
theorem readableInput {input : InputValue} (readable : left.ReadableInput input) :
    right.ReadableInput input := by
  refine ⟨readable.isName, readable.type, fun literal written => ?_⟩
  obtain ⟨other, isOther, related⟩ := same.exists_writtenDefault written
  exact related.isReadable (readable.default other isOther)

end SameInputs

end Schema

end SchemaOrder
