import SchemaOrder.Proofs.Schema.CoercionLevels

/-!
# Values that fit their types

A default that was coerced fits its type: lists hold values that fit the type of items, an object
has values that fit for the input fields of its type, and where it has none, the field has no
default and admits null; a value of an enum is one of its names, and a value of a scalar is what
some literal is coerced to. `Fits.of_coerce` is the induction on the literal, and takes it for
granted that coercion sees the types of the schema as they are.
-/

namespace SchemaOrder

open Coercion Outcome
open Document (Literal)

namespace TypeReference

/-- What a list is of has the name of the list inside. -/
theorem base_of_nullable {type inner : TypeReference} (isList : type.nullable = .list inner) :
    inner.base = type.base := by
  cases type with
  | named name => cases isList
  | list item =>
      cases isList
      rfl
  | nonNull other =>
      obtain rfl : other = .list inner := isList
      rfl

/-- What a list is of can be read, if the list can. -/
theorem IsReadable.of_nullable {type inner : TypeReference} (readable : type.IsReadable)
    (isList : type.nullable = .list inner) : inner.IsReadable := by
  cases readable with
  | named isName => cases isList
  | list readable =>
      cases isList
      exact readable
  | @nonNull other readable =>
      obtain rfl : other = .list inner := isList
      cases readable with
      | list readable => exact readable

/-- A reference that can be read has lists around its name, or it has none. -/
theorem IsReadable.listDepth_eq_zero {type : TypeReference} (readable : type.IsReadable)
    (notList : ∀ inner, type.nullable ≠ .list inner) : listDepth type = 0 := by
  cases readable with
  | named isName => rfl
  | @list inner readable => exact absurd rfl (notList inner)
  | @nonNull inner readable nullable =>
      cases readable with
      | named isName => rfl
      | @list item readable => exact absurd rfl (notList item)
      | nonNull readable => cases nullable

end TypeReference

namespace Schema

/-- The values that the enum with a name has. -/
def enumValues (schema : Schema) (type : Text) : List EnumValue :=
  match (schema.type? type).map NamedType.body with
  | some (.enum values) => values
  | _ => []

/-- Whether the input object with a name takes exactly one of its fields. -/
def takesOneField (schema : Schema) (type : Text) : Bool :=
  match (schema.type? type).map NamedType.body with
  | some (.inputObject _ oneOf) => !oneOf.isFalsy
  | _ => false

/-- A value that fits a type. -/
inductive Fits (schema : Schema) : Value → TypeReference → Prop where
  | null {type : TypeReference} (nullable : type.isNonNull = false) : Fits schema .null type
  | list {items : List Value} {type item : TypeReference} (isList : type.nullable = .list item)
      (fit : ∀ value ∈ items, Fits schema value item) : Fits schema (.list items) type
  | object {fields : List (Text × Value)} {type : TypeReference} (isSingle : listDepth type = 0)
      (isInputObject : schema.kind? type.base = some .inputObject)
      (known : ∀ entry ∈ fields, ∃ field ∈ schema.inputFields type.base, field.name = entry.1)
      (present : ∀ field ∈ schema.inputFields type.base, ∀ value,
        Value.lookup field.name fields = some value → Fits schema value field.type)
      (absent : ∀ field ∈ schema.inputFields type.base, Value.lookup field.name fields = none →
        field.default? = none ∧ field.type.isNonNull = false)
      (one : schema.takesOneField type.base = true → isOneField fields = true) :
      Fits schema (.object fields) type
  | enum {name : Text} {type : TypeReference} (isSingle : listDepth type = 0)
      (isEnum : schema.kind? type.base = some .enum)
      (mem : name ∈ (schema.enumValues type.base).map EnumValue.name) :
      Fits schema (.text name) type
  | scalar {value : Value} {type : TypeReference} (isSingle : listDepth type = 0)
      (isScalar : schema.kind? type.base = some .scalar) {literal : Literal}
      (spelled : literal.IsSpelled) (notNull : literal ≠ .null)
      (given : scalarValue type.base literal = some value) : Fits schema value type

/-- Input fields that lead to types of the schema and can be told apart. -/
structure HasSoundInputs (schema : Schema) : Prop where
  unique : ∀ name, ((schema.inputFields name).map InputValue.name).Nodup
  readable : ∀ name, ∀ field ∈ schema.inputFields name, field.type.IsReadable
  closed : ∀ name, ∀ field ∈ schema.inputFields name, (schema.type? field.type.base).isSome

end Schema

open Schema

variable {ε : Type}

/-- A shape that shows what a body is. What is seen of the fields of an input object, if they are
worked out, is related to the fields. -/
inductive InputShape.Shows (related : List InputValue → List InputValue → Prop) :
    InputShape ε → Body → Prop where
  | scalar (specifiedBy : Option Text) : Shows related .scalar (.scalar specifiedBy)
  | enum {names : List Text} {values : List EnumValue}
      (same : ∀ name, name ∈ names ↔ name ∈ values.map EnumValue.name) :
      Shows related (.enum names) (.enum values)
  | inputObject {seen : Except ε (List InputValue)} {isOneOf : Bool} {fields : List InputValue}
      {oneOf : Json} (sameFlag : isOneOf = !oneOf.isFalsy)
      (known : ∀ known, seen = .ok known → related fields known) :
      Shows related (.inputObject seen isOneOf) (.inputObject fields oneOf)
  | output {body : Body} (notInput : body.kind.isInput = false) : Shows related .output body

/-- Types that are seen as those of a schema are. -/
def InputTypes.Show (types : InputTypes ε) (related : List InputValue → List InputValue → Prop)
    (schema : Schema) : Prop :=
  ∀ name type, schema.type? name = some type → (types.shape name).Shows related type.body

/-- Fields whose defaults fit are seen as they are. -/
def Schema.SameAndFit (schema : Schema) (fields known : List InputValue) : Prop :=
  known = fields ∧ ∀ field ∈ fields, ∀ value ∈ field.default?, schema.Fits value field.type

namespace InputTypes.Show

variable {types : InputTypes ε} {schema : Schema}
  {related : List InputValue → List InputValue → Prop}

/-- What coercion sees of the type with a name. -/
theorem exists_type (shows : types.Show related schema) {name : Text}
    (isKnown : (schema.type? name).isSome) : ∃ type, schema.type? name = some type ∧
      (types.shape name).Shows related type.body := by
  obtain ⟨type, isType⟩ := Option.isSome_iff_exists.mp isKnown
  exact ⟨type, isType, shows name type isType⟩

/-- The types of a schema are seen on every level, if the standard types are, and the other types
are seen on a level where all types are seen on the level below. -/
theorem of_levels (level : Nat → InputTypes ε) {bound : Nat}
    (standard : ∀ name standard type, Standard.type? name = some standard →
      schema.type? name = some type → ∀ fuel, ((level fuel).shape name).Shows related type.body)
    (ordinary : ∀ name type, Standard.type? name = none → schema.type? name = some type →
      ∀ fuel ≤ bound, (∀ less, fuel = less + 1 → (level less).Show related schema) →
        ((level fuel).shape name).Shows related type.body)
    {fuel : Nat} (atMost : fuel ≤ bound) : (level fuel).Show related schema := by
  have step : ∀ fuel ≤ bound, (∀ less, fuel = less + 1 → (level less).Show related schema) →
      (level fuel).Show related schema := by
    intro fuel atMost below name type isType
    cases isStandard : Standard.type? name with
    | none => exact ordinary name type isStandard isType fuel atMost below
    | some found => exact standard name found type isStandard isType fuel
  induction fuel with
  | zero => exact step 0 atMost fun less isLess => absurd isLess (Nat.succ_ne_zero less).symm
  | succ fuel inductionHypothesis =>
      refine step (fuel + 1) atMost ?_
      rintro _ ⟨⟩
      exact inductionHypothesis (Nat.le_of_succ_le atMost)

end InputTypes.Show

namespace Schema.Fits

open InputTypes.Suit

variable {types : InputTypes ε} {schema : Schema}

/-- A value that is the only item of lists within lists fits if it does so without lists. -/
theorem wrap {value : Value} {type : TypeReference} (readable : type.IsReadable)
    (fits : ∀ inner, inner.base = type.base → listDepth inner = 0 → schema.Fits value inner) :
    schema.Fits (Coercion.wrap (listDepth type) value) type := by
  induction readable with
  | named isName => exact fits _ rfl rfl
  | @list inner readable inductionHypothesis =>
      refine .list rfl fun item one => ?_
      obtain rfl := List.mem_singleton.mp one
      exact inductionHypothesis fits
  | @nonNull inner readable nullable inductionHypothesis =>
      cases readable with
      | named isName => exact fits _ rfl rfl
      | @list item readable =>
          cases inductionHypothesis fits with
          | list isList fit => exact .list isList fit
          | scalar isSingle => cases isSingle
      | nonNull readable => cases nullable

/-- What a literal that is neither null nor a list is coerced to for a type without fields fits. -/
theorem of_leafValue {related : List InputValue → List InputValue → Prop}
    (shows : types.Show related schema) {literal : Literal} (spelled : literal.IsSpelled)
    (notNull : literal ≠ .null) {value : Value} {type : TypeReference}
    (isKnown : (schema.type? type.base).isSome) (isSingle : listDepth type = 0)
    (coerced : leafValue types type.base literal = .ok (some value)) : schema.Fits value type := by
  obtain ⟨known, isType, shown⟩ := shows.exists_type isKnown
  have isKind : schema.kind? type.base = some known.body.kind := by
    rw [kind?, isType]
    rfl
  unfold leafValue at coerced
  generalize types.shape type.base = shape, isBody : known.body = body at coerced shown
  rw [isBody] at isKind
  cases shown with
  | scalar specifiedBy => exact .scalar isSingle isKind spelled notNull (Except.ok.inj coerced)
  | @enum names values same =>
      cases literal with
      | enumValue name =>
          simp only [Except.ok.injEq, Option.ite_none_right_eq_some, Option.some.injEq] at coerced
          obtain ⟨mem, rfl⟩ := coerced
          refine .enum isSingle isKind ?_
          rw [enumValues, isType, Option.map_some, isBody]
          exact (same name).mp (List.contains_iff_mem.mp mem)
      | _ => cases coerced
  | inputObject => cases coerced
  | output => cases coerced

/-- The same within lists. -/
theorem of_wrap_leafValue {related : List InputValue → List InputValue → Prop}
    (shows : types.Show related schema) {literal : Literal} (spelled : literal.IsSpelled)
    (notNull : literal ≠ .null) {value : Value} {type : TypeReference}
    (isKnown : (schema.type? type.base).isSome) (readable : type.IsReadable)
    (coerced : (leafValue types type.base literal).map
      (fun value => value.map (Coercion.wrap (listDepth type))) = .ok (some value)) :
    schema.Fits value type := by
  obtain ⟨value?, given, isSome⟩ := map_eq_ok_iff.mp coerced
  obtain ⟨single, rfl, rfl⟩ := Option.map_eq_some_iff.mp isSome
  refine wrap readable fun inner sameBase isSingle => ?_
  rw [← sameBase] at isKnown given
  exact of_leafValue shows spelled notNull isKnown isSingle given

/-- An object fits if its fields were coerced for the fields of its type. -/
theorem of_objectFields {known : List InputValue} {written : List (WrittenField ε)}
    {values : List (Text × Value)} {type : TypeReference} {seen : NamedType} {oneOf : Json}
    (isSingle : listDepth type = 0) (isType : schema.type? type.base = some seen)
    (isBody : seen.body = .inputObject known oneOf)
    (unique : (known.map InputValue.name).Nodup)
    (coerced : objectFields written known = .ok (some values))
    (one : (!oneOf.isFalsy) = true → isOneField values = true)
    (defaults : ∀ field ∈ known, ∀ value ∈ field.default?, schema.Fits value field.type)
    (fit : ∀ field ∈ known, ∀ given ∈ written, ∀ value,
      given.coerce field.type = .ok (some value) → schema.Fits value field.type) :
    schema.Fits (.object values) type := by
  have areFields : schema.inputFields type.base = known := by
    rw [inputFields, isType, Option.map_some, isBody]
  have isInputObject : schema.kind? type.base = some .inputObject := by
    rw [kind?, isType, Option.map_some, NamedType.kind, isBody]
    rfl
  have takesOne : schema.takesOneField type.base = !oneOf.isFalsy := by
    rw [takesOneField, isType, Option.map_some, isBody]
  refine .object isSingle isInputObject ?_ ?_ ?_ fun takes => one (takesOne ▸ takes)
  all_goals rw [areFields]
  · intro entry mem
    obtain ⟨field, fieldMem, sameName, -⟩ := exists_of_objectFields coerced mem
    exact ⟨field, fieldMem, sameName⟩
  · intro field fieldMem value found
    obtain ⟨other, otherMem, sameName, held⟩ :=
      exists_of_objectFields coerced (Value.mem_of_lookup found)
    obtain rfl : other = field := List.inj_on_of_nodup_map unique otherMem fieldMem sameName
    rcases held with isDefault | ⟨given, givenMem, isCoerced⟩
    · exact defaults other otherMem value isDefault
    · exact fit other otherMem given givenMem value isCoerced
  · intro field fieldMem notFound
    obtain ⟨value?, isOwn, there⟩ := ownField_of_objectFields coerced fieldMem
    cases value? with
    | none => exact absent_of_ownField isOwn
    | some value => exact absurd notFound (Value.lookup_ne_none_of_mem (there value rfl))

/-- Whatever coercion makes of a literal fits its type, if it sees the types of the schema as they
are, with defaults that fit. -/
theorem of_coerce (sound : schema.HasSoundInputs) (shows : types.Show schema.SameAndFit schema)
    {literal : Literal} (spelled : literal.IsSpelled) {type : TypeReference} {value : Value}
    (isKnown : (schema.type? type.base).isSome) (readable : type.IsReadable)
    (coerced : coerce types literal type = .ok (some value)) : schema.Fits value type := by
  induction spelled generalizing type value with
  | «variable» name => cases coerced
  | null =>
      simp only [coerce, Except.ok.injEq, Option.ite_none_left_eq_some,
        Option.some.injEq] at coerced
      obtain ⟨nullable, rfl⟩ := coerced
      exact .null (by simpa using nullable)
  | @list items spelled inductionHypothesis =>
      simp only [coerce] at coerced
      split at coerced
      · next inner isList =>
          obtain ⟨values?, inItems, isSome⟩ := map_eq_ok_iff.mp coerced
          obtain ⟨values, rfl, rfl⟩ := Option.map_eq_some_iff.mp isSome
          refine .list isList fun item mem => ?_
          rcases exists_of_coerceItems inItems mem with
            ⟨rfl, nullable⟩ | ⟨literal, literalMem, given⟩
          · exact .null nullable
          · rw [← TypeReference.base_of_nullable isList] at isKnown
            exact inductionHypothesis literal literalMem isKnown (readable.of_nullable isList) given
      · next notList =>
          rw [type.base_nullable] at coerced
          exact of_leafValue shows (.list spelled) (by simp) isKnown
            (readable.listDepth_eq_zero notList) coerced
  | @object fields spelled inductionHypothesis =>
      simp only [coerce] at coerced
      split at coerced
      · next seen isOneOf isShape =>
          obtain ⟨known, isSeen, rest⟩ := bind_eq_ok_iff.mp coerced
          obtain ⟨values?, inFields, same⟩ := bind_eq_ok_iff.mp rest
          obtain ⟨values, accepted, rfl⟩ := Option.map_eq_some_iff.mp (pure_eq_ok_iff.mp same)
          obtain ⟨rfl, admitted⟩ := Option.filter_eq_some_iff.mp accepted
          obtain ⟨found, isType, shown⟩ := shows.exists_type isKnown
          rw [isShape] at shown
          generalize isBody : found.body = body at shown
          cases shown with
          | @inputObject _ _ own oneOf sameFlag related =>
              obtain ⟨rfl, defaults⟩ := related known isSeen
              have areFields : schema.inputFields type.base = known := by
                rw [inputFields, isType, Option.map_some, isBody]
              refine wrap readable fun inner sameBase isSingle => ?_
              rw [← sameBase] at isType areFields
              refine of_objectFields isSingle isType isBody (areFields ▸ sound.unique inner.base)
                inFields (fun takes => ?_) defaults ?_
              · rw [sameFlag, takes] at admitted
                simpa using admitted
              · intro field fieldMem given givenMem value isCoerced
                rw [← areFields] at fieldMem
                obtain ⟨literal, literalMem, isLiteral⟩ := exists_of_mem_writtenFields givenMem
                rw [isLiteral] at isCoerced
                exact inductionHypothesis literal literalMem (sound.closed _ field fieldMem)
                  (sound.readable _ field fieldMem) isCoerced
      · exact of_wrap_leafValue shows (.object spelled) (by simp) isKnown readable coerced
  | integer isInteger =>
      exact of_wrap_leafValue shows (.integer isInteger) (by simp) isKnown readable coerced
  | float digits =>
      exact of_wrap_leafValue shows (.float digits) (by simp) isKnown readable coerced
  | text content isBlock =>
      exact of_wrap_leafValue shows (.text content isBlock) (by simp) isKnown readable coerced
  | boolean truth =>
      exact of_wrap_leafValue shows (.boolean truth) (by simp) isKnown readable coerced
  | enumValue isName notReserved =>
      exact of_wrap_leafValue shows (.enumValue isName notReserved) (by simp) isKnown readable
        coerced

end Schema.Fits

end SchemaOrder
