import SchemaOrder.Proofs.Collections
import SchemaOrder.Proofs.Document.Spelling
import SchemaOrder.Proofs.Document.WrittenNumbers
import SchemaOrder.Proofs.Schema.RearrangedDefaults
import SchemaOrder.Schema.Coercion

/-!
# Writing what was coerced

A default that was read as a literal and coerced to its type is written as a literal that can be
read. What could stand in the way are values of enums, which are written as bare names: they are
names because the literal spelled them, if coercion and writing see the same kind of type under a
name. `InputTypes.Suit` says so, and `writesReadable_of_coerce` is the induction on the literal.
-/

namespace SchemaOrder

namespace Value

/-- What is found under a name is there. -/
theorem mem_of_lookup {name : Text} {fields : List (Text × Value)} {value : Value}
    (found : lookup name fields = some value) : (name, value) ∈ fields := by
  obtain ⟨entry, isFound, rfl⟩ := Option.map_eq_some_iff.mp found
  obtain ⟨mem, rfl⟩ := Named.of_find?_eq_some isFound
  exact mem

/-- Under the name of an entry something is found. -/
theorem lookup_ne_none_of_mem {entry : Text × Value} {fields : List (Text × Value)}
    (mem : entry ∈ fields) : lookup entry.1 fields ≠ none := by
  intro notFound
  have noEntry := List.find?_eq_none.mp (Option.map_eq_none_iff.mp notFound) entry mem
  simp at noEntry

end Value

namespace Schema

open Document (Literal IsName IsDigits IsInteger withoutFeed reservedNames isDigits_ofNat)
open CodePoint (ofChar)
open Coercion Outcome

/-- A value that is written as a literal which can be read, wherever it is written. -/
def WritesReadable (schema : Schema) (value : Value) (type : TypeReference) : Prop :=
  ∀ literal, schema.defaultLiteral value type = .ok (some literal) → literal.IsReadable

/-- Every integer is written in digits, behind a sign where it is negative. -/
theorem isInteger_ofInt (number : Int) : IsInteger (Text.ofInt number) := by
  cases number with
  | ofNat magnitude => exact ⟨[], _, rfl, .inl rfl, isDigits_ofNat magnitude⟩
  | negSucc predecessor =>
      exact ⟨[ofChar '-'], _, rfl, .inr rfl, isDigits_ofNat (predecessor + 1)⟩

/-- What ends in a digit does not end in a line feed. -/
theorem withoutFeed_of_isInteger {digits : Text} (isInteger : IsInteger digits) :
    withoutFeed digits = digits := by
  obtain ⟨sign, whole, rfl, -, nonempty, areDigits⟩ := isInteger
  unfold withoutFeed
  rw [if_neg]
  intro endsWith
  obtain ⟨before, same⟩ := List.isSuffixOf_iff_suffix.mp endsWith
  have last := congrArg List.getLast? same
  rw [List.getLast?_append_of_ne_nil _ nonempty] at last
  have isFeed : whole.getLast? = some (ofChar '\n') := by
    rw [← last]
    simp [Text.ofString]
  have isDigit := areDigits _ (List.mem_of_getLast? isFeed)
  revert isDigit
  decide

/-- The magnitude of an integer is a zero, or digits. -/
theorem isDigits_of_magnitude {magnitude : Text} (holds : (match magnitude with
    | [] => false
    | first :: rest =>
      if first = ofChar '0' then rest.isEmpty
      else first.isDigit && rest.all CodePoint.isDigit) = true) : IsDigits magnitude := by
  cases magnitude with
  | nil => cases holds
  | cons first rest =>
      refine ⟨by simp, fun codePoint mem => ?_⟩
      by_cases zero : first = ofChar '0'
      · simp only [zero, if_true, List.isEmpty_iff] at holds
        rw [holds, List.mem_singleton, zero] at mem
        rw [mem]
        rfl
      · simp only [zero, if_false, Bool.and_eq_true, List.all_eq_true] at holds
        rcases List.mem_cons.mp mem with rfl | inRest
        · exact holds.1
        · exact holds.2 codePoint inRest

/-- A text that counts as an integer is one but for a line feed at its end. -/
theorem isInteger_of_isIntegerText {text : Text} (isInteger : isIntegerText text = true) :
    IsInteger (withoutFeed text) := by
  have isDigits : IsDigits (if (withoutFeed text).startsWith "-" then (withoutFeed text).drop 1
      else withoutFeed text) := isDigits_of_magnitude isInteger
  split at isDigits
  · next negative =>
      obtain ⟨behind, same⟩ := List.isPrefixOf_iff_prefix.mp negative
      refine ⟨[ofChar '-'], _, ?_, .inr rfl, isDigits⟩
      rw [← same]
      rfl
  · exact ⟨[], _, rfl, .inl rfl, isDigits⟩

/-- A value of a scalar type is written as a literal that can be read. -/
theorem isReadable_scalarLiteral {type : Text} {value : Value} {literal : Literal}
    (written : scalarLiteral type value = .ok (some literal)) : literal.IsReadable := by
  cases value with
  | boolean value =>
      cases written
      exact .boolean value
  | integer value =>
      cases written
      refine .integer ?_
      rw [withoutFeed_of_isInteger (isInteger_ofInt value)]
      exact isInteger_ofInt value
  | float number =>
      simp only [scalarLiteral] at written
      split at written
      · next isFinite =>
          cases written
          exact .float (Document.isNumber_plainText isFinite)
      · split at written <;> cases written
  | text content =>
      cases written
      split
      · next isIdentifier =>
          rw [Bool.and_eq_true] at isIdentifier
          exact .integer (isInteger_of_isIntegerText isIdentifier.2)
      · exact .text content
  | null | unbound | list | object => cases written

/-- A value of a type that is no input object is written as a literal that can be read, if it is a
name where its type is an enum. -/
theorem isReadable_leafLiteral {schema : Schema} {name : Text} {value : Value} {literal : Literal}
    (spelled : schema.kind? name = some .enum → ∀ content, value = .text content →
      IsName content ∧ content ∉ reservedNames)
    (written : schema.leafLiteral name value = .ok (some literal)) : literal.IsReadable := by
  unfold leafLiteral at written
  split at written
  · exact isReadable_scalarLiteral written
  · next isEnum =>
      cases written
      obtain ⟨isName, notReserved⟩ := spelled isEnum _ rfl
      exact .enumValue isName notReserved
  all_goals cases written

/-- No list is written where its type is none. -/
theorem leafLiteral_list {schema : Schema} {name : Text} {items : List Value} {literal : Literal} :
    schema.leafLiteral name (.list items) ≠ .ok (some literal) := by
  unfold leafLiteral
  cases schema.kind? name with
  | none => nofun
  | some kind => cases kind <;> nofun

section Parts

variable {schema : Schema}

/-- What is written of a list is what its items are written as. -/
theorem mem_itemLiterals {items : List Value} {type : TypeReference} {literals : List Literal}
    (written : schema.itemLiterals items type = .ok literals) {literal : Literal}
    (mem : literal ∈ literals) :
    ∃ item ∈ items, schema.defaultLiteral item type = .ok (some literal) := by
  induction items generalizing literals with
  | nil =>
      cases written
      cases mem
  | cons head tail inductionHypothesis =>
      simp only [itemLiterals, bind_eq_ok_iff, pure_eq_ok_iff] at written
      obtain ⟨first?, atHead, others, inTail, rfl⟩ := written
      rcases List.mem_append.mp mem with atFirst | later
      · rw [Option.mem_toList] at atFirst
        exact ⟨head, by simp, atFirst ▸ atHead⟩
      · obtain ⟨item, itemMem, given⟩ := inductionHypothesis inTail later
        exact ⟨item, by simp [itemMem], given⟩

/-- A list is written as a list of what its items are written as. -/
theorem writesReadable_list {items : List Value} {type : TypeReference}
    (readable : ∀ inner, type.nullable = .list inner → ∀ item ∈ items,
      schema.WritesReadable item inner) : schema.WritesReadable (.list items) type := by
  intro literal written
  simp only [defaultLiteral] at written
  generalize type.nullable = nullable at readable written
  cases nullable with
  | list inner =>
      obtain ⟨literals, inItems, same⟩ := bind_eq_ok_iff.mp written
      cases same
      refine .list fun written mem => ?_
      obtain ⟨item, itemMem, given⟩ := mem_itemLiterals inItems mem
      exact readable inner rfl item itemMem written given
  | named name => exact absurd written leafLiteral_list
  | nonNull inner => exact absurd written leafLiteral_list

/-- The fields of an object are written as what stands under their names. -/
theorem mem_fieldLiterals {fields : List (Text × Value)} {known : List InputValue}
    {literals : List (Text × Literal)}
    (written : fieldLiterals (schema.heldFields fields) known = .ok literals)
    {literal : Text × Literal} (mem : literal ∈ literals) :
    ∃ field ∈ known, literal.1 = field.name ∧ ∃ value,
      Value.lookup field.name fields = some value ∧
        schema.defaultLiteral value field.type = .ok (some literal.2) := by
  rw [fieldLiterals_eq] at written
  obtain ⟨results, computed, rfl⟩ := map_eq_ok_iff.mp written
  obtain ⟨result, resultMem, isSome⟩ := List.mem_filterMap.mp mem
  obtain rfl : result = some literal := isSome
  obtain ⟨field, fieldMem, given⟩ := exists_of_mem_mapM computed resultMem
  unfold heldLiteral at given
  rw [find?_heldFields] at given
  cases found : Value.lookup field.name fields with
  | none =>
      rw [found] at given
      cases given
  | some value =>
      rw [found] at given
      obtain ⟨literal?, atField, same⟩ := bind_eq_ok_iff.mp given
      cases literal? with
      | none => cases same
      | some written =>
          cases same
          exact ⟨field, fieldMem, rfl, value, found, atField⟩

/-- An object is written as what stands under the names of the fields of its type, if that is an
input object. -/
theorem writesReadable_object {fields : List (Text × Value)} {type : TypeReference}
    (readable : schema.kind? type.base = some .inputObject →
      ∀ field ∈ schema.inputFields type.base, IsName field.name ∧
        ∀ value, (field.name, value) ∈ fields → schema.WritesReadable value field.type) :
    schema.WritesReadable (.object fields) type := by
  intro literal written
  simp only [defaultLiteral] at written
  split at written
  · next isInput =>
      obtain ⟨literals, inFields, same⟩ := bind_eq_ok_iff.mp written
      cases same
      refine .object (fun written mem => ?_) fun written mem => ?_
      all_goals obtain ⟨field, fieldMem, sameName, value, inValue, given⟩ :=
        mem_fieldLiterals inFields mem
      · exact sameName ▸ (readable isInput field fieldMem).1
      · exact (readable isInput field fieldMem).2 value (Value.mem_of_lookup inValue) _ given
  · exact isReadable_leafLiteral (by rintro - content ⟨⟩) written

/-- Null is written as null. -/
theorem writesReadable_null (type : TypeReference) : schema.WritesReadable .null type := by
  intro literal written
  simp only [defaultLiteral] at written
  split at written
  · cases written
  · cases written
    exact .null

/-- A reference without lists is none to a list where null is not refused. -/
theorem nullable_ne_list {type inner : TypeReference} (isSingle : listDepth type = 0) :
    type.nullable ≠ .list inner := by
  rintro isList
  match type, isSingle, isList with
  | .nonNull (.list _), isSingle, _ => cases isSingle

/-- A value that is no object is written as a literal that can be read where its type is no list,
if it is a name where its type is an enum. -/
theorem writesReadable_of_spelled {value : Value} {type : TypeReference}
    (isSingle : listDepth type = 0)
    (notObject : schema.kind? type.base = some .inputObject → ∀ fields, value ≠ .object fields)
    (spelled : schema.kind? type.base = some .enum → ∀ content, value = .text content →
      IsName content ∧ content ∉ reservedNames) : schema.WritesReadable value type := by
  cases value with
  | null => exact writesReadable_null type
  | list items =>
      exact writesReadable_list fun inner isList => absurd isList (nullable_ne_list isSingle)
  | object fields =>
      exact writesReadable_object fun isInput => absurd rfl (notObject isInput fields)
  | unbound =>
      intro literal written
      simp only [defaultLiteral] at written
      cases written
  | boolean | integer | float | text =>
      intro literal written
      simp only [defaultLiteral] at written
      exact isReadable_leafLiteral spelled written

end Parts

end Schema

open Schema Coercion Outcome
open Document (Literal IsName reservedNames)

/-- A shape of a type that suits what a schema knows under its name: where the schema writes bare
names or the fields of objects, they were coerced as such. -/
def InputShape.Suits {ε : Type} (schema : Schema) (name : Text) : InputShape ε → Prop
  | .scalar => schema.kind? name ≠ some .enum ∧ schema.kind? name ≠ some .inputObject
  | .enum _ => schema.kind? name ≠ some .inputObject
  | .inputObject fields _ => ∀ known, fields = .ok known →
    ∀ field ∈ known, ∀ own ∈ schema.inputFields name, own.name = field.name →
      own.type = field.type ∧ ∀ value ∈ field.default?, schema.WritesReadable value own.type
  | .output => True

/-- A scalar suits a name under which a schema knows nothing but a scalar. -/
theorem InputShape.suits_scalar {ε : Type} {schema : Schema} {name : Text}
    (isScalar : ∀ kind, schema.kind? name = some kind → kind = .scalar) :
    (.scalar : InputShape ε).Suits schema name := by
  constructor
  · intro isEnum
    cases isScalar _ isEnum
  · intro isInputObject
    cases isScalar _ isInputObject

/-- An enum suits a name under which a schema knows nothing but an enum. -/
theorem InputShape.suits_enum {ε : Type} {schema : Schema} {name : Text} {values : List Text}
    (isEnum : ∀ kind, schema.kind? name = some kind → kind = .enum) :
    (.enum values : InputShape ε).Suits schema name := by
  intro isInputObject
  cases isEnum _ isInputObject

/-- Types as coercion sees them that suit a schema, whose input fields have names. -/
structure InputTypes.Suit {ε : Type} (types : InputTypes ε) (schema : Schema) : Prop where
  shape : ∀ name, (types.shape name).Suits schema name
  names : ∀ name, ∀ field ∈ schema.inputFields name, IsName field.name

namespace InputTypes.Suit

variable {ε : Type} {types : InputTypes ε} {schema : Schema}

/-- Types that are seen level by level suit a schema if each level does where the one below it
does. -/
theorem of_levels (levels : Nat → InputTypes ε)
    (names : ∀ name, ∀ field ∈ schema.inputFields name, IsName field.name)
    (level : ∀ fuel, (∀ less, fuel = less + 1 → (levels less).Suit schema) →
      ∀ name, ((levels fuel).shape name).Suits schema name) (fuel : Nat) :
    (levels fuel).Suit schema := by
  induction fuel with
  | zero => exact ⟨level 0 nofun, names⟩
  | succ fuel inductionHypothesis =>
      refine ⟨level (fuel + 1) ?_, names⟩
      rintro less ⟨⟩
      exact inductionHypothesis

/-- A value that is the only item of lists within lists is written like the value alone. -/
theorem writesReadable_wrap {value : Value} {type : TypeReference}
    (readable : ∀ inner, inner.base = type.base → listDepth inner = 0 →
      schema.WritesReadable value inner) :
    schema.WritesReadable (wrap (listDepth type) value) type := by
  induction type with
  | named name => exact readable (.named name) rfl rfl
  | list inner inductionHypothesis =>
      refine writesReadable_list fun item isItem one mem => ?_
      obtain rfl : inner = item := TypeReference.list.inj isItem
      obtain rfl := List.mem_singleton.mp mem
      exact inductionHypothesis readable
  | nonNull inner inductionHypothesis =>
      have alone := inductionHypothesis readable
      rw [listDepth]
      cases depth : listDepth inner with
      | zero => exact readable (.nonNull inner) rfl depth
      | succ levels =>
          -- a list is written under `inner`, which has to be one
          rw [depth] at alone
          intro literal written
          cases inner with
          | list item => exact alone literal written
          | named name => cases depth
          | nonNull other => exact absurd written leafLiteral_list

/-- What coercion makes of a literal for a type that is no input object is written as a literal
that can be read. -/
theorem writesReadable_leafValue (suit : types.Suit schema) {literal : Literal}
    (spelled : literal.IsSpelled) {value : Value} {type : TypeReference}
    (coerced : leafValue types type.base literal = .ok (some value))
    (isSingle : listDepth type = 0) : schema.WritesReadable value type := by
  have suits := suit.shape type.base
  unfold leafValue at coerced
  generalize types.shape type.base = shape at coerced suits
  cases shape with
  | scalar =>
      exact writesReadable_of_spelled isSingle (fun isInput => absurd isInput suits.2)
        fun isEnum => absurd isEnum suits.1
  | enum values =>
      cases spelled with
      | @enumValue name isName notReserved =>
          simp only [Except.ok.injEq, Option.ite_none_right_eq_some, Option.some.injEq] at coerced
          obtain ⟨-, rfl⟩ := coerced
          refine writesReadable_of_spelled isSingle (fun _ => nofun) ?_
          rintro - content ⟨⟩
          exact ⟨isName, notReserved⟩
      | _ => cases coerced
  | inputObject fields isOneOf => cases coerced
  | output => cases coerced

/-- The same within lists. -/
theorem writesReadable_wrap_leafValue (suit : types.Suit schema) {literal : Literal}
    (spelled : literal.IsSpelled) {value : Value} {type : TypeReference}
    (coerced : (leafValue types type.base literal).map
      (fun value => value.map (wrap (listDepth type))) = .ok (some value)) :
    schema.WritesReadable value type := by
  obtain ⟨value?, given, isSome⟩ := map_eq_ok_iff.mp coerced
  obtain ⟨single, rfl, rfl⟩ := Option.map_eq_some_iff.mp isSome
  refine writesReadable_wrap fun inner sameBase isSingle => ?_
  exact suit.writesReadable_leafValue spelled (sameBase ▸ given) isSingle

/-- An item of a list. A variable counts as null. -/
def coerceItem (types : InputTypes ε) (item : Literal) (type : TypeReference) :
    Except ε (Option Value) :=
  if item.isVariable then .ok (if type.isNonNull then none else some .null)
  else coerce types item type

/-- The first item of a list is coerced before the others. -/
theorem coerceItems_cons (item : Literal) (rest : List Literal) (type : TypeReference) :
    coerceItems types (item :: rest) type = coerceItem types item type >>= fun value =>
      match value with
      | none => .ok none
      | some value => (coerceItems types rest type).map fun values => values.map (value :: ·) := by
  rw [coerceItems, coerceItem]
  split <;> rfl

/-- The items of a list are coerced one by one, save that variables count as null. -/
theorem exists_of_coerceItems {literals : List Literal} {type : TypeReference}
    {values : List Value} (coerced : coerceItems types literals type = .ok (some values))
    {value : Value} (mem : value ∈ values) :
    (value = .null ∧ type.isNonNull = false) ∨
      ∃ literal ∈ literals, coerce types literal type = .ok (some value) := by
  induction literals generalizing values with
  | nil =>
      cases coerced
      cases mem
  | cons head tail inductionHypothesis =>
      rw [coerceItems_cons] at coerced
      obtain ⟨value?, atHead, rest⟩ := bind_eq_ok_iff.mp coerced
      cases value? with
      | none => cases rest
      | some first =>
          obtain ⟨others?, inTail, same⟩ := map_eq_ok_iff.mp rest
          obtain ⟨others, rfl, rfl⟩ := Option.map_eq_some_iff.mp same
          rcases List.mem_cons.mp mem with rfl | later
          · unfold coerceItem at atHead
            split at atHead
            · split at atHead <;> cases atHead
              next nullable => exact .inl ⟨rfl, by simpa using nullable⟩
            · exact .inr ⟨head, by simp, atHead⟩
          · rcases inductionHypothesis inTail later with isNull | ⟨literal, literalMem, given⟩
            · exact .inl isNull
            · exact .inr ⟨literal, by simp [literalMem], given⟩

/-- The fields of an object that were written are coerced as their literals are. -/
theorem exists_of_mem_writtenFields {fields : List (Text × Literal)} {given : WrittenField ε}
    (mem : given ∈ writtenFields types fields) :
    ∃ field ∈ fields, given.coerce = coerce types field.2 := by
  induction fields with
  | nil => cases mem
  | cons head tail inductionHypothesis =>
      obtain ⟨name, literal⟩ := head
      rcases List.mem_cons.mp mem with rfl | later
      · exact ⟨(name, literal), by simp, rfl⟩
      · obtain ⟨field, fieldMem, same⟩ := inductionHypothesis later
        exact ⟨field, by simp [fieldMem], same⟩

/-- A field of an object: none where it has to be there and is not, and otherwise its value, if it
has one. -/
def ownField (written : List (WrittenField ε)) (field : InputValue) :
    Except ε (Option (Option Value)) :=
  let last := written.reverse.find? fun given => given.name = field.name
  match last.filter fun given => !given.isVariable with
  | some given => (given.coerce field.type).map fun value? => value?.map some
  | none =>
    match field.default? with
    | some value => .ok (some (some value))
    | none => .ok (if field.type.isNonNull then none else some none)

/-- The first field of an object is made before the others. -/
theorem objectFields_cons (written : List (WrittenField ε)) (field : InputValue)
    (rest : List InputValue) :
    objectFields written (field :: rest) = ownField written field >>= fun own =>
      match own with
      | none => .ok none
      | some value? => (objectFields written rest).map fun others =>
        others.map fun fields => (value?.map (Prod.mk field.name)).toList ++ fields := by
  simp only [objectFields, ownField]
  generalize (written.reverse.find? fun given => given.name = field.name).filter
    (fun given => !given.isVariable) = last
  cases last with
  | some given =>
      refine congrArg (_ >>= ·) (funext fun own => ?_)
      cases own with
      | none => rfl
      | some value? => cases value? <;> rfl
  | none =>
      cases field.default? with
      | some value => rfl
      | none => cases field.type.isNonNull <;> rfl

/-- A field of an object has its default or what was written for it. -/
theorem of_ownField {written : List (WrittenField ε)} {field : InputValue} {value : Value}
    (given : ownField written field = .ok (some (some value))) :
    field.default? = some value ∨
      ∃ own ∈ written, own.coerce field.type = .ok (some value) := by
  simp only [ownField] at given
  split at given
  · next own found =>
      obtain ⟨coerced?, isCoerced, isSome⟩ := map_eq_ok_iff.mp given
      obtain ⟨result, rfl, same⟩ := Option.map_eq_some_iff.mp isSome
      cases same
      have isLast := (Option.filter_eq_some_iff.mp found).1
      exact .inr ⟨own, by simpa using List.mem_of_find?_eq_some isLast, isCoerced⟩
  · split at given
    · next isDefault =>
        cases given
        exact .inl isDefault
    · split at given <;> cases given

/-- The fields of an object are those that were written and the others with their defaults. -/
theorem exists_of_objectFields {written : List (WrittenField ε)} {known : List InputValue}
    {values : List (Text × Value)} (coerced : objectFields written known = .ok (some values))
    {entry : Text × Value} (mem : entry ∈ values) :
    ∃ field ∈ known, field.name = entry.1 ∧ (field.default? = some entry.2 ∨
      ∃ given ∈ written, given.coerce field.type = .ok (some entry.2)) := by
  induction known generalizing values with
  | nil =>
      cases coerced
      cases mem
  | cons head tail inductionHypothesis =>
      rw [objectFields_cons] at coerced
      obtain ⟨own, atHead, rest⟩ := bind_eq_ok_iff.mp coerced
      cases own with
      | none => cases rest
      | some value? =>
          obtain ⟨others?, inTail, same⟩ := map_eq_ok_iff.mp rest
          obtain ⟨others, rfl, rfl⟩ := Option.map_eq_some_iff.mp same
          rcases List.mem_append.mp mem with atFirst | later
          · rw [Option.mem_toList] at atFirst
            obtain ⟨value, rfl, rfl⟩ := Option.map_eq_some_iff.mp atFirst
            exact ⟨head, by simp, rfl, of_ownField atHead⟩
          · obtain ⟨field, fieldMem, found⟩ := inductionHypothesis inTail later
            exact ⟨field, by simp [fieldMem], found⟩

/-- A field of an object that is not there has no default and admits null. -/
theorem absent_of_ownField {written : List (WrittenField ε)} {field : InputValue}
    (given : ownField written field = .ok (some none)) :
    field.default? = none ∧ field.type.isNonNull = false := by
  simp only [ownField] at given
  split at given
  · obtain ⟨coerced?, -, isSome⟩ := map_eq_ok_iff.mp given
    obtain ⟨result, -, same⟩ := Option.map_eq_some_iff.mp isSome
    cases same
  · split at given
    · cases given
    · next isDefault =>
        split at given <;> cases given
        next nullable => exact ⟨isDefault, by simpa using nullable⟩

/-- Every field of the type of an object was made, and is there if it has a value. -/
theorem ownField_of_objectFields {written : List (WrittenField ε)} {known : List InputValue}
    {values : List (Text × Value)} (coerced : objectFields written known = .ok (some values))
    {field : InputValue} (mem : field ∈ known) :
    ∃ value?, ownField written field = .ok (some value?) ∧
      ∀ value ∈ value?, (field.name, value) ∈ values := by
  induction known generalizing values with
  | nil => cases mem
  | cons head tail inductionHypothesis =>
      rw [objectFields_cons] at coerced
      obtain ⟨own, atHead, rest⟩ := bind_eq_ok_iff.mp coerced
      cases own with
      | none => cases rest
      | some value? =>
          obtain ⟨others?, inTail, same⟩ := map_eq_ok_iff.mp rest
          obtain ⟨others, rfl, rfl⟩ := Option.map_eq_some_iff.mp same
          rcases List.mem_cons.mp mem with rfl | later
          · refine ⟨value?, atHead, ?_⟩
            rintro value rfl
            simp
          · obtain ⟨value?, isOwn, there⟩ := inductionHypothesis inTail later
            exact ⟨value?, isOwn, fun value isValue => by simp [there value isValue]⟩

/-- A list that is coerced to a type without parts stays a list. -/
theorem exists_of_leafValue_list {name : Text} {items : List Literal} {value : Value}
    (coerced : leafValue types name (.list items) = .ok (some value)) :
    ∃ values, value = .list values := by
  unfold leafValue at coerced
  split at coerced
  · simp only [Except.ok.injEq, scalarValue] at coerced
    split_ifs at coerced
    cases coerced
    exact ⟨_, rfl⟩
  all_goals cases coerced

/-- Whatever coercion makes of a literal is written as a literal that can be read. -/
theorem writesReadable_of_coerce (suit : types.Suit schema) {literal : Literal}
    (spelled : literal.IsSpelled) {type : TypeReference} {value : Value}
    (coerced : coerce types literal type = .ok (some value)) :
    schema.WritesReadable value type := by
  induction spelled generalizing type value with
  | «variable» name => cases coerced
  | null =>
      simp only [coerce, Except.ok.injEq, Option.ite_none_left_eq_some,
        Option.some.injEq] at coerced
      obtain ⟨-, rfl⟩ := coerced
      exact writesReadable_null type
  | @list items spelled inductionHypothesis =>
      simp only [coerce] at coerced
      split at coerced
      · next inner isList =>
          obtain ⟨values?, inItems, isSome⟩ := map_eq_ok_iff.mp coerced
          obtain ⟨values, rfl, rfl⟩ := Option.map_eq_some_iff.mp isSome
          refine writesReadable_list fun item isItem one mem => ?_
          obtain rfl : inner = item := TypeReference.list.inj (isList.symm.trans isItem)
          rcases exists_of_coerceItems inItems mem with ⟨rfl, -⟩ | ⟨literal, literalMem, given⟩
          · exact writesReadable_null inner
          · exact inductionHypothesis literal literalMem given
      · next notList =>
          obtain ⟨values, rfl⟩ := exists_of_leafValue_list coerced
          exact writesReadable_list fun inner isList => absurd isList (notList inner)
  | @object fields spelled inductionHypothesis =>
      simp only [coerce] at coerced
      split at coerced
      · next known isOneOf isShape =>
          obtain ⟨known, isKnown, rest⟩ := bind_eq_ok_iff.mp coerced
          obtain ⟨values?, inFields, same⟩ := bind_eq_ok_iff.mp rest
          obtain ⟨values, accepted, rfl⟩ := Option.map_eq_some_iff.mp (pure_eq_ok_iff.mp same)
          obtain ⟨rfl, -⟩ := Option.filter_eq_some_iff.mp accepted
          have suits := suit.shape type.base
          rw [isShape] at suits
          refine writesReadable_wrap fun inner sameBase _ => ?_
          refine writesReadable_object fun _ own ownMem => ⟨suit.names _ own ownMem, ?_⟩
          intro value inValues
          obtain ⟨field, fieldMem, sameName, held⟩ := exists_of_objectFields inFields inValues
          obtain ⟨sameType, readable⟩ :=
            suits known isKnown field fieldMem own (sameBase ▸ ownMem) sameName.symm
          rcases held with isDefault | ⟨given, givenMem, isCoerced⟩
          · exact readable value isDefault
          · obtain ⟨literal, literalMem, isLiteral⟩ := exists_of_mem_writtenFields givenMem
            rw [isLiteral, ← sameType] at isCoerced
            exact inductionHypothesis literal literalMem isCoerced
      · exact suit.writesReadable_wrap_leafValue (.object spelled) coerced
  | integer isInteger =>
      exact suit.writesReadable_wrap_leafValue (.integer isInteger) coerced
  | float | text | boolean =>
      exact suit.writesReadable_wrap_leafValue (by constructor) coerced
  | enumValue isName notReserved =>
      exact suit.writesReadable_wrap_leafValue (.enumValue isName notReserved) coerced

end InputTypes.Suit

end SchemaOrder
