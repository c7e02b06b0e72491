import SchemaOrder.Proofs.Schema.WrittenScalars

/-!
# Defaults that are read as they were written

A value that fits its type is written as a literal, and coercing what this literal is read as gives
the value again, when objects are read as mappings. `Fits.writesAlike` is the induction on the
value; it takes it for granted that coercion sees the input fields of the schema, in their order.
-/

namespace SchemaOrder

open Schema Coercion Outcome
open Document (Literal)

namespace Schema

/-- Input fields that are seen with the names and types of others, and without a default where these
have none. -/
def SameFields (fields known : List InputValue) : Prop :=
  List.Forall₂ (fun own seen => seen.name = own.name ∧ seen.type = own.type ∧
    (own.default? = none → seen.default? = none)) fields known

end Schema

namespace Coercion

variable {ε : Type} {types : InputTypes ε} {schema : Schema}

/-- Whatever the literal is coerced to where it is read again is the value, when objects are read as
mappings. -/
def ReadsAlike (types : InputTypes ε) (type : TypeReference) (value : Value) (literal : Literal) :
    Prop :=
  ∀ result, coerce types literal.reread type = .ok result →
    ∃ read, result = some read ∧ value.Alike read

/-- No variable is read as a value. -/
theorem ReadsAlike.isVariable_eq_false {type : TypeReference} {value : Value} {literal : Literal}
    (alike : ReadsAlike types type value literal) : literal.reread.isVariable = false := by
  cases literal with
  | «variable» name =>
      obtain ⟨_, ⟨⟩, -⟩ := alike none rfl
  | float digits =>
      simp only [Literal.reread]
      split <;> rfl
  | _ => rfl

/-- A value that is written is written as a literal that is read alike. -/
def WritesAlike (types : InputTypes ε) (schema : Schema) (type : TypeReference) (value : Value) :
    Prop :=
  value.holdsFloat = false → ∀ literal?, schema.defaultLiteral value type = .ok literal? →
    (∀ literal ∈ literal?, literal.holdsFeed = false) →
      ∃ literal, literal? = some literal ∧ ReadsAlike types type value literal

/-- The items of a list are written as literals that are read alike, one by one. -/
theorem forall₂_of_itemLiterals {items : List Value} {type : TypeReference}
    (writes : ∀ item ∈ items, WritesAlike types schema type item)
    (noFloat : ∀ item ∈ items, item.holdsFloat = false) {literals : List Literal}
    (written : schema.itemLiterals items type = .ok literals)
    (noFeed : ∀ literal ∈ literals, literal.holdsFeed = false) :
    List.Forall₂ (ReadsAlike types type) items literals := by
  induction items generalizing literals with
  | nil =>
      cases written
      exact .nil
  | cons head tail inductionHypothesis =>
      simp only [itemLiterals, bind_eq_ok_iff, pure_eq_ok_iff] at written
      obtain ⟨first?, atHead, others, inTail, rfl⟩ := written
      obtain ⟨headWrites, tailWrites⟩ := List.forall_mem_cons.mp writes
      obtain ⟨headNoFloat, tailNoFloat⟩ := List.forall_mem_cons.mp noFloat
      obtain ⟨headNoFeed, tailNoFeed⟩ := List.forall_mem_append.mp noFeed
      obtain ⟨literal, rfl, alike⟩ := headWrites headNoFloat _ atHead (by simpa using headNoFeed)
      exact .cons alike (inductionHypothesis tailWrites tailNoFloat inTail tailNoFeed)

open InputTypes.Suit

/-- Items that are read alike are read as a list that is alike. -/
theorem alike_of_coerceItems {items : List Value} {type : TypeReference}
    {literals : List Literal} (alike : List.Forall₂ (ReadsAlike types type) items literals)
    {result : Option (List Value)}
    (coerced : coerceItems types (literals.map Literal.reread) type = .ok result) :
    ∃ read, result = some read ∧ List.Forall₂ Value.Alike items read := by
  induction alike generalizing result with
  | nil =>
      cases coerced
      exact ⟨[], rfl, .nil⟩
  | cons head _ inductionHypothesis =>
      rw [List.map_cons, coerceItems_cons] at coerced
      obtain ⟨first?, atHead, rest⟩ := bind_eq_ok_iff.mp coerced
      rw [coerceItem, if_neg (by simp [head.isVariable_eq_false])] at atHead
      obtain ⟨first, rfl, isAlike⟩ := head first? atHead
      obtain ⟨others?, inTail, rfl⟩ := map_eq_ok_iff.mp rest
      obtain ⟨others, rfl, areAlike⟩ := inductionHypothesis inTail
      exact ⟨first :: others, rfl, .cons isAlike areAlike⟩

/-- A list is written as a literal that is read alike, if its items are. -/
theorem writesAlike_list {items : List Value} {type item : TypeReference}
    (isList : type.nullable = .list item)
    (writes : ∀ value ∈ items, WritesAlike types schema item value) :
    WritesAlike types schema type (.list items) := by
  intro noFloat literal? written noFeed
  simp only [defaultLiteral, isList, bind_eq_ok_iff, pure_eq_ok_iff] at written
  obtain ⟨literals, inItems, rfl⟩ := written
  have areNoFeed : ∀ literal ∈ literals, literal.holdsFeed = false := by
    have whole := noFeed _ rfl
    rw [Literal.holdsFeed, Literal.itemsHoldFeed_eq] at whole
    simpa using List.any_eq_false.mp whole
  have alike := forall₂_of_itemLiterals writes
    (fun _ mem => Value.holdsFloat_of_mem_list noFloat mem) inItems areNoFeed
  refine ⟨_, rfl, fun result coerced => ?_⟩
  simp only [Literal.reread, Literal.rereadItems_eq, coerce, isList] at coerced
  obtain ⟨read?, areRead, rfl⟩ := map_eq_ok_iff.mp coerced
  obtain ⟨read, rfl, areAlike⟩ := alike_of_coerceItems alike areRead
  exact ⟨_, rfl, .list areAlike.length_eq fun _ mem => List.forall₂_zip areAlike mem⟩

/-- The fields of an object are coerced as their literals are. -/
theorem writtenFields_eq (fields : List (Text × Literal)) : writtenFields types fields =
    fields.map fun field => ⟨field.1, field.2.isVariable, coerce types field.2⟩ := by
  induction fields with
  | nil => rfl
  | cons head tail inductionHypothesis =>
      obtain ⟨name, literal⟩ := head
      rw [writtenFields, inductionHypothesis, List.map_cons]

/-- Fields of an object that are read alike: literals stand under the names of the fields that the
object has, and what is read of each is what it has. -/
structure FieldsReadAlike (types : InputTypes ε) (fields : List (Text × Value))
    (literals : List (Text × Literal)) (own : InputValue) : Prop where
  reads : ∀ literal, (own.name, literal) ∈ literals → ∃ value,
    Value.lookup own.name fields = some value ∧ ReadsAlike types own.type value literal
  there : ∀ value, Value.lookup own.name fields = some value →
    ∃ literal, (own.name, literal) ∈ literals
  absent : Value.lookup own.name fields = none →
    own.default? = none ∧ own.type.isNonNull = false

/-- A field of an object is read as the object has it. -/
theorem FieldsReadAlike.ownField {fields : List (Text × Value)} {literals : List (Text × Literal)}
    {own seen : InputValue} (alike : FieldsReadAlike types fields literals own)
    (sameName : seen.name = own.name) (sameType : seen.type = own.type)
    (noDefault : own.default? = none → seen.default? = none) {result : Option (Option Value)}
    (given : ownField (writtenFields types (Literal.rereadFields literals)) seen = .ok result) :
    ∃ value?, result = some value? ∧
      Option.Rel Value.Alike (Value.lookup own.name fields) value? := by
  have isWritten : ∀ field ∈ writtenFields types (Literal.rereadFields literals),
      field.name = own.name → ∃ literal, (own.name, literal) ∈ literals ∧
        field = ⟨own.name, literal.reread.isVariable, coerce types literal.reread⟩ := by
    intro field mem isName
    rw [writtenFields_eq, Literal.rereadFields_eq, List.map_map] at mem
    obtain ⟨⟨name, literal⟩, literalMem, rfl⟩ := List.mem_map.mp mem
    obtain rfl : name = own.name := isName
    exact ⟨literal, literalMem, rfl⟩
  unfold InputTypes.Suit.ownField at given
  rw [sameName, sameType] at given
  cases found : Value.lookup own.name fields with
  | none =>
      have notWritten : ((writtenFields types (Literal.rereadFields literals)).reverse.find?
          fun given => given.name = own.name) = none := by
        refine List.find?_eq_none.mpr fun field mem isName => ?_
        obtain ⟨literal, literalMem, -⟩ :=
          isWritten field (List.mem_reverse.mp mem) (of_decide_eq_true isName)
        obtain ⟨value, isFound, -⟩ := alike.reads literal literalMem
        cases found.symm.trans isFound
      obtain ⟨isDefault, nullable⟩ := alike.absent found
      rw [notWritten, noDefault isDefault, nullable] at given
      cases given
      exact ⟨none, rfl, .none⟩
  | some value =>
      obtain ⟨literal, literalMem⟩ := alike.there value found
      have isThere : ((writtenFields types (Literal.rereadFields literals)).reverse.find?
          fun given => given.name = own.name).isSome := by
        rw [List.find?_isSome]
        refine ⟨⟨own.name, literal.reread.isVariable, coerce types literal.reread⟩, ?_, by simp⟩
        rw [List.mem_reverse, writtenFields_eq, Literal.rereadFields_eq, List.map_map]
        exact List.mem_map.mpr ⟨_, literalMem, rfl⟩
      obtain ⟨field, isLast⟩ := Option.isSome_iff_exists.mp isThere
      have isName : field.name = own.name := by simpa using List.find?_some isLast
      obtain ⟨literal, literalMem, rfl⟩ := isWritten field
        (List.mem_reverse.mp (List.mem_of_find?_eq_some isLast)) isName
      obtain ⟨_, isFound, readsAlike⟩ := alike.reads literal literalMem
      cases found.symm.trans isFound
      simp only [isLast, Option.filter_some, readsAlike.isVariable_eq_false, Bool.not_false,
        if_true] at given
      obtain ⟨value?, isRead, rfl⟩ := map_eq_ok_iff.mp given
      obtain ⟨read, rfl, isAlike⟩ := readsAlike value? isRead
      exact ⟨some read, rfl, .some isAlike⟩

/-- Values that are read of the fields of an object: in the order of the input fields, those that
the object has, each alike. -/
def ReadInOrder (owns : List InputValue) (fields values : List (Text × Value)) : Prop :=
  List.Forall₂ (fun own entry => entry.1 = own.name ∧ ∃ value,
    Value.lookup own.name fields = some value ∧ value.Alike entry.2)
    (owns.filter fun own => (Value.lookup own.name fields).isSome) values

/-- The fields of an object are read as the object has them, in the order of its type. -/
theorem readInOrder_of_objectFields {fields : List (Text × Value)}
    {literals : List (Text × Literal)} {owns seens : List InputValue} (same : SameFields owns seens)
    (alike : ∀ own ∈ owns, FieldsReadAlike types fields literals own)
    {result : Option (List (Text × Value))}
    (given : objectFields (writtenFields types (Literal.rereadFields literals)) seens =
      .ok result) : ∃ values, result = some values ∧ ReadInOrder owns fields values := by
  unfold SameFields at same
  induction same generalizing result with
  | nil =>
      cases given
      exact ⟨[], rfl, .nil⟩
  | @cons own seen owns seens head _ inductionHypothesis =>
      obtain ⟨sameName, sameType, noDefault⟩ := head
      obtain ⟨headAlike, tailAlike⟩ := List.forall_mem_cons.mp alike
      rw [objectFields_cons] at given
      obtain ⟨own?, atHead, rest⟩ := bind_eq_ok_iff.mp given
      obtain ⟨value?, rfl, isAlike⟩ := headAlike.ownField sameName sameType noDefault atHead
      obtain ⟨others?, inTail, rfl⟩ := map_eq_ok_iff.mp rest
      obtain ⟨others, rfl, areAlike⟩ := inductionHypothesis tailAlike inTail
      refine ⟨_, rfl, ?_⟩
      unfold ReadInOrder at areAlike ⊢
      rw [List.filter_cons]
      generalize isFound : Value.lookup own.name fields = found at isAlike
      cases isAlike with
      | none => exact areAlike
      | some isAlike => exact .cons ⟨sameName, _, isFound, isAlike⟩ areAlike

/-- What stands under the name of a field is written under it, if it is written. -/
theorem exists_of_fieldLiterals {fields : List (Text × Value)} {owns : List InputValue}
    {literals : List (Text × Literal)}
    (written : fieldLiterals (schema.heldFields fields) owns = .ok literals) {own : InputValue}
    (mem : own ∈ owns) {value : Value} (found : Value.lookup own.name fields = some value) :
    ∃ literal?, schema.defaultLiteral value own.type = .ok literal? ∧
      ∀ literal ∈ literal?, (own.name, literal) ∈ literals := by
  rw [fieldLiterals_eq] at written
  obtain ⟨results, computed, rfl⟩ := map_eq_ok_iff.mp written
  obtain ⟨result, resultMem, given⟩ := exists_of_mem_forall₂ (forall₂_of_mapM computed).flip mem
  unfold heldLiteral at given
  rw [find?_heldFields, found] at given
  obtain ⟨literal?, isLiteral, isResult⟩ := bind_eq_ok_iff.mp given
  cases isResult
  refine ⟨literal?, isLiteral, ?_⟩
  rintro literal rfl
  exact List.mem_filterMap.mpr ⟨_, resultMem, rfl⟩

/-- The fields of an object are written as literals that are read alike, if what they hold is. -/
theorem fieldsReadAlike_of_fieldLiterals {fields : List (Text × Value)} {owns : List InputValue}
    (unique : (owns.map InputValue.name).Nodup)
    (noFloat : ∀ field ∈ fields, field.2.holdsFloat = false)
    (writes : ∀ own ∈ owns, ∀ value, Value.lookup own.name fields = some value →
      WritesAlike types schema own.type value)
    (absent : ∀ own ∈ owns, Value.lookup own.name fields = none →
      own.default? = none ∧ own.type.isNonNull = false)
    {literals : List (Text × Literal)}
    (written : fieldLiterals (schema.heldFields fields) owns = .ok literals)
    (noFeed : ∀ field ∈ literals, field.2.holdsFeed = false) :
    ∀ own ∈ owns, FieldsReadAlike types fields literals own := by
  intro own ownMem
  refine ⟨fun literal literalMem => ?_, fun value found => ?_, absent own ownMem⟩
  · obtain ⟨other, otherMem, sameName, value, found, isWritten⟩ :=
      mem_fieldLiterals written literalMem
    obtain rfl : own = other := List.inj_on_of_nodup_map unique ownMem otherMem sameName
    obtain ⟨_, ⟨⟩, alike⟩ := writes own ownMem value found
      (noFloat _ (Value.mem_of_lookup found)) _ isWritten fun other isOther =>
        Option.some.inj isOther ▸ noFeed _ literalMem
    exact ⟨value, found, alike⟩
  · obtain ⟨literal?, isLiteral, there⟩ := exists_of_fieldLiterals written ownMem found
    obtain ⟨literal, rfl, -⟩ := writes own ownMem value found
      (noFloat _ (Value.mem_of_lookup found)) _ isLiteral
      fun literal mem => noFeed _ (there literal mem)
    exact ⟨literal, there literal rfl⟩

/-- Only null is like null. -/
theorem ne_null_of_alike {left right : Value} (alike : left.Alike right) (notNull : left ≠ .null) :
    right ≠ .null := by
  cases alike with
  | same => exact notNull
  | list => nofun
  | object => nofun

/-- An object has exactly one field if it has one that is not null, and no others. -/
theorem isOneField_iff {fields : List (Text × Value)} :
    isOneField fields = true ↔ ∃ name value, fields = [(name, value)] ∧ value ≠ .null := by
  constructor
  · intro one
    unfold isOneField at one
    split at one
    · cases one
    · next field notNull =>
        exact ⟨field.1, field.2, rfl, fun isNull => notNull field.1 (Prod.ext rfl isNull)⟩
    · cases one
  · rintro ⟨name, value, rfl, notNull⟩
    cases value with
    | null => exact absurd rfl notNull
    | _ => rfl

namespace ReadInOrder

variable {owns : List InputValue} {fields values : List (Text × Value)}
  (read : ReadInOrder owns fields values)
include read

/-- Whatever is read stands in the object. -/
theorem exists_of_lookup {name : Text} {right : Value}
    (inRight : Value.lookup name values = some right) :
    ∃ left, Value.lookup name fields = some left ∧ left.Alike right := by
  obtain ⟨own, -, sameName, left, inLeft, isAlike⟩ :=
    exists_of_mem_forall₂ read (Value.mem_of_lookup inRight)
  obtain rfl : name = own.name := sameName
  exact ⟨left, inLeft, isAlike⟩

variable (known : ∀ entry ∈ fields, ∃ own ∈ owns, own.name = entry.1)
include known

/-- Whatever stands in the object is read, if its type knows all the fields. -/
theorem exists_lookup {name : Text} {left : Value} (inLeft : Value.lookup name fields = some left) :
    ∃ right, Value.lookup name values = some right := by
  obtain ⟨own, ownMem, rfl⟩ := known _ (Value.mem_of_lookup inLeft)
  have present : own ∈ owns.filter fun own => (Value.lookup own.name fields).isSome :=
    List.mem_filter.mpr ⟨ownMem, Option.isSome_iff_exists.mpr ⟨left, inLeft⟩⟩
  obtain ⟨entry, entryMem, sameName, -⟩ := exists_of_mem_forall₂ (List.Forall₂.flip read) present
  exact Option.ne_none_iff_exists'.mp (sameName ▸ Value.lookup_ne_none_of_mem entryMem)

/-- The object that is read is alike. -/
theorem alike : Value.Alike (.object fields) (.object values) := by
  refine .object (fun name => ?_) fun name left right inLeft inRight => ?_
  · rw [Bool.eq_iff_iff, Option.isSome_iff_exists, Option.isSome_iff_exists]
    constructor
    · rintro ⟨left, inLeft⟩
      exact read.exists_lookup known inLeft
    · rintro ⟨right, inRight⟩
      exact (read.exists_of_lookup inRight).imp fun _ => And.left
  · obtain ⟨other, inOther, isAlike⟩ := read.exists_of_lookup inRight
    exact Option.some.inj (inOther.symm.trans inLeft) ▸ isAlike

/-- An object that has exactly one field is read as one that has exactly one. -/
theorem isOneField (unique : (owns.map InputValue.name).Nodup)
    (one : Coercion.isOneField fields = true) : Coercion.isOneField values = true := by
  obtain ⟨name, value, rfl, notNull⟩ := isOneField_iff.mp one
  obtain ⟨field, fieldMem, rfl⟩ := known _ List.mem_cons_self
  have isPresent : ∀ own ∈ owns,
      (Value.lookup own.name [(field.name, value)]).isSome = true ↔ own = field := by
    intro own ownMem
    rw [Option.isSome_iff_exists]
    constructor
    · rintro ⟨found, isFound⟩
      have sameName := congrArg Prod.fst (List.mem_singleton.mp (Value.mem_of_lookup isFound))
      exact List.inj_on_of_nodup_map unique ownMem fieldMem sameName
    · rintro rfl
      exact ⟨value, by simp [Value.lookup, Named.find?]⟩
  have onlyField : owns.filter (fun own =>
      (Value.lookup own.name [(field.name, value)]).isSome) = [field] := by
    have nodup : owns.Nodup := unique.of_map _
    refine List.perm_singleton.mp ((List.perm_ext_iff_of_nodup (nodup.filter _)
      (List.nodup_singleton field)).mpr fun own => ?_)
    rw [List.mem_filter, List.mem_singleton]
    constructor
    · rintro ⟨mem, isSome⟩
      exact (isPresent own mem).mp isSome
    · rintro rfl
      exact ⟨fieldMem, (isPresent own fieldMem).mpr rfl⟩
  unfold ReadInOrder at read
  rw [onlyField] at read
  obtain ⟨⟨name, found⟩, others, ⟨-, given, isGiven, alike⟩, none, rfl⟩ :=
    List.forall₂_cons_left_iff.mp read
  obtain rfl := List.forall₂_nil_left_iff.mp none
  obtain rfl : given = value :=
    congrArg Prod.snd (List.mem_singleton.mp (Value.mem_of_lookup isGiven))
  exact isOneField_iff.mpr ⟨name, found, rfl, ne_null_of_alike alike notNull⟩

end ReadInOrder

/-- What coercion sees of a type of a kind. -/
theorem exists_shape {related : List InputValue → List InputValue → Prop}
    (shows : types.Show related schema) {name : Text} {kind : TypeKind}
    (isKind : schema.kind? name = some kind) : ∃ body, body.kind = kind ∧
      (types.shape name).Shows related body ∧
      (∀ values, body = .enum values → schema.enumValues name = values) ∧
      ∀ fields oneOf, body = .inputObject fields oneOf →
        schema.inputFields name = fields ∧ schema.takesOneField name = !oneOf.isFalsy := by
  rw [kind?, Option.map_eq_some_iff] at isKind
  obtain ⟨found, isType, rfl⟩ := isKind
  refine ⟨found.body, rfl, shows _ _ isType, fun values isBody => ?_, fun fields oneOf isBody => ?_⟩
  · rw [enumValues, isType, Option.map_some, isBody]
  · rw [inputFields, takesOneField, isType, Option.map_some, isBody]
    exact ⟨rfl, rfl⟩

/-- An object is written as a literal that is read alike, if what it holds is. -/
theorem writesAlike_object (sound : schema.HasSoundInputs)
    (shows : types.Show SameFields schema) {fields : List (Text × Value)} {type : TypeReference}
    (isSingle : listDepth type = 0) (isInputObject : schema.kind? type.base = some .inputObject)
    (known : ∀ entry ∈ fields, ∃ field ∈ schema.inputFields type.base, field.name = entry.1)
    (writes : ∀ field ∈ schema.inputFields type.base, ∀ value,
      Value.lookup field.name fields = some value → WritesAlike types schema field.type value)
    (absent : ∀ field ∈ schema.inputFields type.base, Value.lookup field.name fields = none →
      field.default? = none ∧ field.type.isNonNull = false)
    (one : schema.takesOneField type.base = true → isOneField fields = true) :
    WritesAlike types schema type (.object fields) := by
  intro noFloat literal? written noFeed
  have unique := sound.unique type.base
  simp only [defaultLiteral, isInputObject, bind_eq_ok_iff, pure_eq_ok_iff] at written
  obtain ⟨literals, inFields, rfl⟩ := written
  have areNoFeed : ∀ field ∈ literals, field.2.holdsFeed = false := by
    have whole := noFeed _ rfl
    rw [Literal.holdsFeed, Literal.fieldsHoldFeed_eq] at whole
    simpa using List.any_eq_false.mp whole
  have alike := fieldsReadAlike_of_fieldLiterals unique
    (fun _ mem => Value.holdsFloat_of_mem_object noFloat mem) writes absent inFields areNoFeed
  refine ⟨_, rfl, fun result coerced => ?_⟩
  obtain ⟨body, isKind, shown, -, areFields⟩ := exists_shape shows isInputObject
  simp only [Literal.reread, coerce] at coerced
  generalize types.shape type.base = shape at coerced shown
  cases shown with
  | scalar | enum => cases isKind
  | output notInput =>
      rw [isKind] at notInput
      cases notInput
  | @inputObject _ isOneOf own oneOf sameFlag related =>
      obtain ⟨rfl, takesOne⟩ := areFields own oneOf rfl
      obtain ⟨seens, isSeen, rest⟩ := bind_eq_ok_iff.mp coerced
      obtain ⟨values?, given, same⟩ := bind_eq_ok_iff.mp rest
      obtain ⟨values, rfl, read⟩ := readInOrder_of_objectFields (related seens isSeen) alike given
      have admitted : (!isOneOf || isOneField values) = true := by
        rw [sameFlag, ← takesOne]
        cases takes : schema.takesOneField type.base with
        | false => rfl
        | true => exact read.isOneField known unique (one takes)
      rw [Option.filter_some, if_pos admitted, isSingle] at same
      obtain rfl := pure_eq_ok_iff.mp same
      exact ⟨_, rfl, read.alike known⟩

/-- Null is written as a literal that is read alike where it is admitted. -/
theorem writesAlike_null {type : TypeReference} (nullable : type.isNonNull = false) :
    WritesAlike types schema type .null := by
  intro noFloat literal? written noFeed
  simp only [defaultLiteral, nullable, Bool.false_eq_true, if_false] at written
  cases written
  refine ⟨.null, rfl, fun result coerced => ?_⟩
  rw [Literal.reread, coerce, nullable] at coerced
  · cases coerced
    exact ⟨.null, rfl, .same .null⟩
  all_goals simp

/-- A name of an enum is written as a literal that is read alike. -/
theorem writesAlike_enum {related : List InputValue → List InputValue → Prop}
    (shows : types.Show related schema) {name : Text} {type : TypeReference}
    (isSingle : listDepth type = 0) (isEnum : schema.kind? type.base = some .enum)
    (mem : name ∈ (schema.enumValues type.base).map EnumValue.name) :
    WritesAlike types schema type (.text name) := by
  intro noFloat literal? written noFeed
  simp only [defaultLiteral, leafLiteral, isEnum] at written
  cases written
  refine ⟨.enumValue name, rfl, fun result coerced => ?_⟩
  obtain ⟨body, isKind, shown, areValues, -⟩ := exists_shape shows isEnum
  have coerced : coerce types (.enumValue name) type = .ok result := coerced
  rw [coerce_of_isSimple rfl isSingle, leafValue] at coerced
  generalize types.shape type.base = seen at coerced shown
  cases shown with
  | enum same =>
      rw [areValues _ rfl] at mem
      simp only [List.contains_iff_mem.mpr ((same name).mpr mem), if_true] at coerced
      cases coerced
      exact ⟨.text name, rfl, .same _⟩
  | scalar | inputObject => cases isKind
  | output notInput =>
      rw [isKind] at notInput
      cases notInput

/-- What some literal is coerced to as a scalar is written as a literal that is read alike. -/
theorem writesAlike_scalar {related : List InputValue → List InputValue → Prop}
    (shows : types.Show related schema) {value : Value} {type : TypeReference}
    (isSingle : listDepth type = 0) (isScalar : schema.kind? type.base = some .scalar)
    {literal : Literal} (spelled : literal.IsSpelled) (notNull : literal ≠ .null)
    (given : scalarValue type.base literal = some value) :
    WritesAlike types schema type value := by
  intro noFloat literal? written noFeed
  rw [defaultLiteral_of_scalar isSingle isScalar
    (fun isNull => (scalarValue_ne notNull).1 (isNull ▸ given))
    fun isUnbound => (scalarValue_ne notNull).2 (isUnbound ▸ given)] at written
  obtain ⟨literal, rfl, simple, isValue⟩ :=
    scalarValue_scalarLiteral spelled notNull given noFloat written noFeed
  refine ⟨literal, rfl, fun result coerced => ?_⟩
  obtain ⟨body, isKind, shown, -⟩ := exists_shape shows isScalar
  rw [coerce_of_isSimple simple isSingle, leafValue] at coerced
  generalize types.shape type.base = seen at coerced shown
  cases shown with
  | scalar =>
      rw [isValue] at coerced
      cases coerced
      exact ⟨value, rfl, .same value⟩
  | enum | inputObject => cases isKind
  | output notInput =>
      rw [isKind] at notInput
      cases notInput

end Coercion

/-- A value that fits its type is written as a literal that is read alike, if coercion sees the
input fields of the schema. -/
theorem Schema.Fits.writesAlike {ε : Type} {types : InputTypes ε} {schema : Schema}
    (sound : schema.HasSoundInputs) (shows : types.Show SameFields schema) {value : Value}
    {type : TypeReference} (fits : schema.Fits value type) :
    WritesAlike types schema type value := by
  induction fits with
  | null nullable => exact writesAlike_null nullable
  | list isList fit inductionHypothesis => exact writesAlike_list isList inductionHypothesis
  | object isSingle isInputObject known present absent one inductionHypothesis =>
      exact writesAlike_object sound shows isSingle isInputObject known inductionHypothesis absent
        one
  | enum isSingle isEnum mem => exact writesAlike_enum shows isSingle isEnum mem
  | scalar isSingle isScalar spelled notNull given =>
      exact writesAlike_scalar shows isSingle isScalar spelled notNull given

end SchemaOrder
