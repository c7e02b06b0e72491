import SchemaOrder.Proofs.Schema.CoercedDefaults

/-!
# Coercion level by level

What coercion sees of the types of a schema is worked out level by level, and every level follows
the defaults of input fields one step further than the one below. What has a result on one level
has the same result on every level above: `InputTypes.Extends` says when types are seen at least
as well, and `coerce_of_extends` is the induction on the literal.
-/

namespace SchemaOrder

open Schema Coercion Outcome
open Document (Literal)

variable {ε : Type}

/-- A shape that says at least what another one says: where the fields of an input object are
worked out, they are the same. -/
inductive InputShape.Extends : InputShape ε → InputShape ε → Prop where
  | scalar : Extends .scalar .scalar
  | enum (values : List Text) : Extends (.enum values) (.enum values)
  | inputObject {fields fields' : Except ε (List InputValue)} (isOneOf : Bool)
      (known : ∀ known, fields' = .ok known → fields = .ok known) :
      Extends (.inputObject fields isOneOf) (.inputObject fields' isOneOf)
  | output : Extends .output .output

/-- A shape says what it says itself. -/
theorem InputShape.Extends.refl (shape : InputShape ε) : shape.Extends shape := by
  cases shape with
  | scalar => exact .scalar
  | enum values => exact .enum values
  | inputObject fields isOneOf => exact .inputObject isOneOf fun _ isKnown => isKnown
  | output => exact .output

/-- Types that are seen at least as well as others. -/
def InputTypes.Extends (more less : InputTypes ε) : Prop :=
  ∀ name, (more.shape name).Extends (less.shape name)

/-- Every level sees types at least as well as the lower ones, if it does so where the levels
below the two do. -/
theorem InputTypes.Extends.of_levels (levels : Nat → InputTypes ε)
    (level : ∀ more less, (∀ less', less = less' + 1 →
        ∃ more', more = more' + 1 ∧ (levels more').Extends (levels less')) →
      (levels more).Extends (levels less)) {more less : Nat} (atMost : less ≤ more) :
    (levels more).Extends (levels less) := by
  induction less generalizing more with
  | zero => exact level more 0 nofun
  | succ less inductionHypothesis =>
      obtain ⟨more, rfl⟩ := Nat.exists_eq_add_of_lt atMost
      refine level _ _ ?_
      rintro _ ⟨⟩
      exact ⟨_, rfl, inductionHypothesis (Nat.le_add_right _ _)⟩

namespace Coercion

open InputTypes.Suit

/-- A field that was written and is coerced to the same values. -/
structure WrittenField.Extends (more less : WrittenField ε) : Prop where
  name : more.name = less.name
  isVariable : more.isVariable = less.isVariable
  coerce : ∀ type value?, less.coerce type = .ok value? → more.coerce type = .ok value?

variable {more less : InputTypes ε}

/-- A value of a type that is no input object does not depend on how well types are seen. -/
theorem leafValue_of_extends (extend : more.Extends less) {name : Text} {literal : Literal}
    {value? : Option Value} (given : leafValue less name literal = .ok value?) :
    leafValue more name literal = .ok value? := by
  have shapes := extend name
  unfold leafValue at given ⊢
  generalize more.shape name = shape, less.shape name = shape' at shapes given ⊢
  cases shapes with
  | scalar | enum | inputObject => exact given
  | output => cases given

/-- The same within lists. -/
theorem wrap_leafValue_of_extends (extend : more.Extends less) {name : Text} {literal : Literal}
    {depth : Nat} {value? : Option Value}
    (given : (leafValue less name literal).map (fun value => value.map (wrap depth)) =
      .ok value?) :
    (leafValue more name literal).map (fun value => value.map (wrap depth)) = .ok value? := by
  obtain ⟨leaf?, isLeaf, same⟩ := map_eq_ok_iff.mp given
  exact map_eq_ok_iff.mpr ⟨leaf?, leafValue_of_extends extend isLeaf, same⟩

/-- A field of an object has the same value where what was written for it has. -/
theorem ownField_of_extends {written written' : List (WrittenField ε)}
    (extend : List.Forall₂ WrittenField.Extends written written') {field : InputValue}
    {own : Option (Option Value)} (given : ownField written' field = .ok own) :
    ownField written field = .ok own := by
  have last := Arrangement.Relates.find? (fun given => given.name = field.name)
    (List.forall₂_reverse_iff.mpr extend) fun _ _ extends' => by rw [extends'.name]
  unfold ownField at given ⊢
  dsimp only at given ⊢
  generalize written.reverse.find? (fun given => given.name = field.name) = last?,
    written'.reverse.find? (fun given => given.name = field.name) = last?' at last given ⊢
  cases last with
  | none => exact given
  | @some found found' extends' =>
      have sameVariable := extends'.isVariable
      cases isVariable : found'.isVariable <;> rw [isVariable] at sameVariable
      · simp only [Option.filter_some, sameVariable, isVariable, Bool.not_false, if_true]
          at given ⊢
        obtain ⟨value?, isValue, isOwn⟩ := map_eq_ok_iff.mp given
        exact map_eq_ok_iff.mpr ⟨value?, extends'.coerce field.type value? isValue, isOwn⟩
      · simpa only [Option.filter_some, sameVariable, isVariable, Bool.not_true,
          Bool.false_eq_true, if_false] using given

/-- The fields of an object are the same where what was written for them is. -/
theorem objectFields_of_extends {written written' : List (WrittenField ε)}
    (extend : List.Forall₂ WrittenField.Extends written written') {known : List InputValue}
    {values? : Option (List (Text × Value))}
    (given : objectFields written' known = .ok values?) :
    objectFields written known = .ok values? := by
  induction known generalizing values? with
  | nil => exact given
  | cons field rest inductionHypothesis =>
      rw [objectFields_cons] at given ⊢
      obtain ⟨own, isOwn, inRest⟩ := bind_eq_ok_iff.mp given
      refine bind_eq_ok_iff.mpr ⟨own, ownField_of_extends extend isOwn, ?_⟩
      cases own with
      | none => exact inRest
      | some value? =>
          obtain ⟨others, isOthers, same⟩ := map_eq_ok_iff.mp inRest
          exact map_eq_ok_iff.mpr ⟨others, inductionHypothesis isOthers, same⟩

mutual

/-- What a literal is coerced to it is coerced to wherever types are seen at least as well. -/
theorem coerce_of_extends (extend : more.Extends less) : ∀ literal type value?,
    coerce less literal type = .ok value? → coerce more literal type = .ok value?
  | .variable _, _, _, given | .null, _, _, given => given
  | .list items, type, value?, given => by
      rw [coerce] at given ⊢
      split at given
      · obtain ⟨values?, inItems, same⟩ := map_eq_ok_iff.mp given
        exact map_eq_ok_iff.mpr ⟨values?, coerceItems_of_extends extend items _ _ inItems, same⟩
      · exact leafValue_of_extends extend given
  | .object fields, type, value?, given => by
      rw [coerce] at given ⊢
      have shapes := extend type.base
      generalize more.shape type.base = shape, less.shape type.base = shape'
        at shapes given ⊢
      cases shapes with
      | scalar | enum | output => exact wrap_leafValue_of_extends extend given
      | inputObject isOneOf same =>
          obtain ⟨known, isKnown, rest⟩ := bind_eq_ok_iff.mp given
          obtain ⟨values?, inFields, accepted⟩ := bind_eq_ok_iff.mp rest
          refine bind_eq_ok_iff.mpr ⟨known, same known isKnown, bind_eq_ok_iff.mpr
            ⟨values?, objectFields_of_extends (writtenFields_extend extend fields) inFields,
              accepted⟩⟩
  | .integer _, _, _, given | .float _, _, _, given | .text .., _, _, given
  | .boolean _, _, _, given | .enumValue _, _, _, given => wrap_leafValue_of_extends extend given

/-- The same for the items of a list. -/
theorem coerceItems_of_extends (extend : more.Extends less) : ∀ items type values?,
    coerceItems less items type = .ok values? → coerceItems more items type = .ok values?
  | [], _, _, given => given
  | item :: rest, type, values?, given => by
      rw [coerceItems_cons] at given ⊢
      obtain ⟨value?, isValue, inRest⟩ := bind_eq_ok_iff.mp given
      refine bind_eq_ok_iff.mpr ⟨value?, ?_, ?_⟩
      · unfold coerceItem at isValue ⊢
        split at isValue
        · next isVariable => rwa [if_pos isVariable]
        · next notVariable =>
            rw [if_neg notVariable]
            exact coerce_of_extends extend item type _ isValue
      · cases value? with
        | none => exact inRest
        | some value =>
            obtain ⟨others?, isOthers, same⟩ := map_eq_ok_iff.mp inRest
            exact map_eq_ok_iff.mpr
              ⟨others?, coerceItems_of_extends extend rest type _ isOthers, same⟩

/-- The same for the fields of an object. -/
theorem writtenFields_extend (extend : more.Extends less) : ∀ fields : List (Text × Literal),
    List.Forall₂ WrittenField.Extends (writtenFields more fields) (writtenFields less fields)
  | [] => .nil
  | (_, literal) :: rest =>
    .cons ⟨rfl, rfl, coerce_of_extends extend literal⟩ (writtenFields_extend extend rest)

end

end Coercion

end SchemaOrder
