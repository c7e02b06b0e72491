import Mathlib.Data.List.Perm.Basic
import SchemaOrder.Proofs.Sorting.RepeatedSorting
import SchemaOrder.Proofs.Sorting.SortedDescriptions

/-!
# Descriptions of sorted copies are in order

The description of a sorted copy lists its things in the order of names, list by list and level by
level. `Describe.ListsInOrder` says this of one list: it holds a value for every one of the given
things and no other, and stands in order. `sort_describes_in_order` puts it together for whole
descriptions, with the one list that no sort touches: the objects that implement an interface are
collected along the types of the copy, so that they stand as the types do.
-/

namespace SchemaOrder.Schema

open Sorter Outcome

variable {order : NameOrder} {schema : Schema}

/-- The objects among some types that say they implement an interface, each as often as it says
so. -/
def implementers (types : List NamedType) (interfaceName : Text) : List Text :=
  types.flatMap fun type =>
    match type.body with
    | .object interfaces _ =>
      (interfaces.filter fun name => name = interfaceName).map fun _ => type.name
    | _ => []

/-- The fields of a body that may have some. -/
def Body.fields? : Body → Option (List Field)
  | .object _ fields | .interface _ fields => some fields
  | _ => none

/-- The input fields of a body that may have some. -/
def Body.inputs? : Body → Option (List InputValue)
  | .inputObject fields _ => some fields
  | _ => none

/-- The interfaces of a body that may have some. -/
def Body.interfaces? : Body → Option (List Text)
  | .object interfaces _ | .interface interfaces _ => some interfaces
  | _ => none

/-- The values of a body that may have some. -/
def Body.values? : Body → Option (List EnumValue)
  | .enum values => some values
  | _ => none

/-- The types that the values of a type may be of, where the objects that implement it are
given. -/
def Body.possible? (objects : List Text) : Body → Option (List Text)
  | .union members => some members
  | .interface .. => some objects
  | _ => none

namespace Describe

/-- A list that holds a value for each of some things, in an order of their names. Where there are
no things to be listed there is no list. -/
def ListsInOrder {α : Type} (order : NameOrder) (name : α → Text) (tells : α → Json → Prop) :
    Option (List α) → Option Json → Prop
  | none, member => member = some .null
  | some things, member => ∃ arranged values, member = some (.array values) ∧
      arranged.Perm things ∧ order.InOrder name arranged ∧ List.Forall₂ tells arranged values

/-- A value that gives its name. -/
def Names (name : Text) (value : Json) : Prop :=
  value.get? "name" = some (.text name)

/-- A value that tells of a field, and lists its arguments in order. -/
structure TellsField (order : NameOrder) (field : Field) (value : Json) : Prop where
  name : Names field.name value
  arguments : ListsInOrder order InputValue.name (fun input => Names input.name)
    (some field.arguments) (value.get? "args")

/-- A value that tells of a directive, and lists its locations and its arguments in order. -/
structure TellsDirective (order : NameOrder) (directive : Directive) (value : Json) : Prop where
  name : Names directive.name value
  locations : ListsInOrder order id (fun location value => value = .text location)
    (some directive.locations) (value.get? "locations")
  arguments : ListsInOrder order InputValue.name (fun input => Names input.name)
    (some directive.arguments) (value.get? "args")

/-- A value that lists everything inside a body in order, where the objects that implement it are
given. -/
structure TellsBody (order : NameOrder) (objects : List Text) (body : Body) (value : Json) :
    Prop where
  fields : ListsInOrder order Field.name (TellsField order) body.fields? (value.get? "fields")
  inputs : ListsInOrder order InputValue.name (fun input => Names input.name) body.inputs?
    (value.get? "inputFields")
  interfaces : ListsInOrder order id Names body.interfaces? (value.get? "interfaces")
  values : ListsInOrder order EnumValue.name (fun listed => Names listed.name) body.values?
    (value.get? "enumValues")
  possible : ListsInOrder order id Names (body.possible? objects) (value.get? "possibleTypes")

/-- A value that tells of a type, and lists everything inside it in order, unless it is an
introspection type. The objects that implement it are among the given types. -/
structure TellsType (order : NameOrder) (types : List NamedType) (type : NamedType)
    (value : Json) : Prop where
  name : Names type.name value
  kind : value.get? "kind" = some (.text type.kind.word)
  body : isIntrospectionType type.name = false →
    TellsBody order (implementers types type.name) type.body value

/-- A description that lists everything in order: the directives of a schema, and its types, behind
which stand the standard types that its index does not hold. There are none of these exactly if
the index holds the type by which schemas describe themselves. -/
def TellsSchema (order : NameOrder) (schema : Schema) (description : Json) : Prop :=
  ∃ about, description.get? "__schema" = some about ∧
    ListsInOrder order Directive.name (TellsDirective order) (some schema.directives)
      (about.get? "directives") ∧
    ∃ values added others, about.get? "types" = some (.array (values ++ others)) ∧
      ListsInOrder order NamedType.name (TellsType order schema.definedTypes)
        (some schema.definedTypes) (some (.array values)) ∧
      List.Forall₂ (TellsType order schema.definedTypes) added others ∧
      (∀ type ∈ added, type ∈ Standard.types ∧ type.name ∉ schema.typeNames) ∧
      (added = [] ↔ Text.ofString "__Schema" ∈ schema.typeNames)

/-- Sorted things that are told of one by one, as what each is changed into, are listed in order. -/
theorem ListsInOrder.of_sort {α β : Type} {name : α → Text} {tells : α → Json → Prop}
    {things : List α} {change : α → β} {shows : β → Json → Prop} {values : List Json}
    (told : List.Forall₂ shows ((order.sort name things).map change) values)
    (each : ∀ thing value, shows (change thing) value → tells thing value) :
    ListsInOrder order name tells (some things) (some (.array values)) := by
  rw [List.forall₂_map_left_iff] at told
  exact ⟨order.sort name things, values, rfl, order.sort_perm name things,
    order.sort_inOrder name things, told.imp each⟩

/-- Sorted things that values are made of one by one are listed in order. -/
theorem ListsInOrder.of_map {α : Type} {name : α → Text} {tells : α → Json → Prop}
    {things : List α} {describe : α → Json} (each : ∀ thing, tells thing (describe thing)) :
    ListsInOrder order name tells (some things)
      (some (.array ((order.sort name things).map describe))) := by
  have described : List.Forall₂ (fun thing value => value = describe thing)
      ((order.sort name things).map id) ((order.sort name things).map describe) := by
    rw [List.map_id, List.forall₂_map_right_iff]
    exact List.forall₂_same.mpr fun _ _ => rfl
  exact .of_sort described fun thing _ same => same ▸ each thing

/-- An object that has a name as its member gives the name. -/
theorem Names.of_member {value : Json} {name : Text}
    (isMember : value.member "name" = .ok (.text name)) : Names name value := by
  unfold Json.member at isMember
  unfold Names
  split at isMember
  · split at isMember
    · next found =>
        rw [found, Except.ok.inj isMember]
    · cases isMember
  · cases isMember

/-- Sorted arguments and input fields are listed in order. -/
theorem inputValues_inOrder {inputs : List InputValue} {value : Json}
    (described : inputValues schema (order.sort InputValue.name inputs) = .ok value) :
    ListsInOrder order InputValue.name (fun input => Names input.name) (some inputs)
      (some value) := by
  obtain ⟨values, areValues, rest⟩ := bind_eq_ok_iff.mp described
  cases rest
  have told := forall₂_of_mapM areValues
  rw [← List.map_id (order.sort InputValue.name inputs)] at told
  exact .of_sort told fun input value said => .of_member (inputValue_described said).2.1

/-- Names that are sorted are listed in order, as references. -/
theorem names_inOrder (schema : Schema) (listed : List Text) :
    ListsInOrder order id Names (some listed) (some (names schema (order.sortNames listed))) :=
  .of_map fun _ => get?_object _ "name"

/-- A field with sorted arguments is told of in order. -/
theorem field_inOrder {described : Field} {value : Json}
    (given : field schema (described.arranged order) = .ok value) :
    TellsField order described value := by
  obtain ⟨arguments, areArguments, rest⟩ := bind_eq_ok_iff.mp given
  cases rest
  exact ⟨get?_object _ "name", (get?_object _ "args").symm ▸ inputValues_inOrder areArguments⟩

/-- Arranged fields are listed in order. -/
theorem fields_inOrder {described : List Field} {value : Json}
    (given : fields schema (arrangedFields order described) = .ok value) :
    ListsInOrder order Field.name (TellsField order) (some described) (some value) := by
  obtain ⟨values, areValues, rest⟩ := bind_eq_ok_iff.mp given
  cases rest
  exact .of_sort (forall₂_of_mapM areValues) fun _ _ => field_inOrder

/-- An arranged directive is told of in order. -/
theorem directive_inOrder {described : Directive} {value : Json}
    (given : directive schema (described.arranged order) = .ok value) :
    TellsDirective order described value := by
  obtain ⟨arguments, areArguments, rest⟩ := bind_eq_ok_iff.mp given
  cases rest
  refine ⟨get?_object _ "name", ?_, ?_⟩
  · rw [show Text.ofString "locations" = _ from rfl, get?_object]
    exact .of_map fun _ => rfl
  · exact (get?_object _ "args").symm ▸ inputValues_inOrder areArguments

/-- The fields of an arranged body are listed in order. -/
theorem bodyFields_inOrder {body : Body} {value : Json}
    (described : bodyFields schema (body.arranged order) = .ok value) :
    ListsInOrder order Field.name (TellsField order) body.fields? (some value) := by
  cases body with
  | object | interface => exact fields_inOrder described
  | scalar | union | enum | inputObject =>
      cases described
      rfl

/-- The input fields of an arranged body are listed in order. -/
theorem bodyInputs_inOrder {body : Body} {value : Json}
    (described : bodyInputs schema (body.arranged order) = .ok value) :
    ListsInOrder order InputValue.name (fun input => Names input.name) body.inputs?
      (some value) := by
  cases body with
  | inputObject => exact inputValues_inOrder described
  | scalar | object | interface | union | enum =>
      cases described
      rfl

/-- The interfaces of an arranged body are listed in order. -/
theorem bodyInterfaces_inOrder (schema : Schema) (body : Body) :
    ListsInOrder order id Names body.interfaces?
      (some (bodyInterfaces schema (body.arranged order))) := by
  cases body with
  | object interfaces | interface interfaces => exact names_inOrder schema interfaces
  | scalar | union | enum | inputObject => rfl

/-- The values of an arranged body are listed in order. -/
theorem bodyValues_inOrder (body : Body) :
    ListsInOrder order EnumValue.name (fun listed => Names listed.name) body.values?
      (some (bodyValues (body.arranged order))) := by
  cases body with
  | enum => exact .of_map fun _ => get?_object _ "name"
  | scalar | object | interface | union | inputObject => rfl

/-- The types that the values of an arranged type may be of are listed in order, if the objects
that implement it are. -/
theorem possibleTypes_inOrder {type : NamedType} {objects : List Text}
    (sameObjects : (schema.implementingObjects type.name).Perm objects)
    (inOrder : order.InOrder id (schema.implementingObjects type.name)) :
    ListsInOrder order id Names (type.body.possible? objects)
      (some (possibleTypes schema { type with body := type.body.arranged order })) := by
  obtain ⟨name, description, body⟩ := type
  cases body with
  | union members => exact names_inOrder schema members
  | interface =>
      have told : List.Forall₂ Names (schema.implementingObjects name)
          ((schema.implementingObjects name).map fun name => reference schema (.named name)) :=
        List.forall₂_map_right_iff.mpr (List.forall₂_same.mpr fun _ _ => get?_object _ "name")
      exact ⟨_, _, rfl, sameObjects, inOrder, told⟩
  | scalar | object | enum | inputObject => rfl

/-- What is said of a type gives its name. -/
theorem names_of_namedType {type : NamedType} {flag value : Json}
    (described : namedType schema type flag = .ok value) : Names type.name value := by
  rw [namedType_eq] at described
  simp only [bind_eq_ok_iff, pure_eq_ok_iff] at described
  obtain ⟨fields, -, inputs, -, rfl⟩ := described
  exact get?_object _ "name"

/-- An arranged type is told of in order, if the objects that implement it stand in order. -/
theorem namedType_inOrder {types : List NamedType} {type : NamedType} {flag value : Json}
    (sameObjects : (schema.implementingObjects type.name).Perm (implementers types type.name))
    (inOrder : order.InOrder id (schema.implementingObjects type.name))
    (described : namedType schema (type.arranged order) flag = .ok value) :
    TellsType order types type value := by
  have named := names_of_namedType described
  rw [NamedType.name_arranged] at named
  rw [namedType_eq] at described
  simp only [bind_eq_ok_iff, pure_eq_ok_iff] at described
  obtain ⟨fields, areFields, inputs, areInputs, rfl⟩ := described
  refine ⟨named, ?_, fun ordinary => ?_⟩
  · rw [← NamedType.kind_arranged type]
    exact get?_object _ "kind"
  · rw [NamedType.arranged_of_not_introspection ordinary] at areFields areInputs ⊢
    exact ⟨(get?_object _ "fields").symm ▸ bodyFields_inOrder areFields,
      (get?_object _ "inputFields").symm ▸ bodyInputs_inOrder areInputs,
      (get?_object _ "interfaces").symm ▸ bodyInterfaces_inOrder schema type.body,
      (get?_object _ "enumValues").symm ▸ bodyValues_inOrder type.body,
      (get?_object _ "possibleTypes").symm ▸ possibleTypes_inOrder sameObjects inOrder⟩

end Describe

/-- A type is an implementer as often when it is arranged. -/
theorem implementers_arranged (type : NamedType) (interfaceName : Text) :
    (implementers [type.arranged order] interfaceName).Perm
      (implementers [type] interfaceName) := by
  unfold NamedType.arranged
  split
  · rfl
  · obtain ⟨name, description, body⟩ := type
    cases body with
    | object interfaces fields =>
        simp only [implementers, Body.arranged, List.flatMap_cons, List.flatMap_nil,
          List.append_nil]
        exact ((order.sort_perm id interfaces).filter _).map _
    | scalar | interface | union | enum | inputObject => rfl

/-- Standard types implement no interface. -/
theorem implementers_of_standard {types : List NamedType}
    (standard : ∀ type ∈ types, type ∈ Standard.types) (interfaceName : Text) :
    implementers types interfaceName = [] := by
  have noInterfaces : ∀ type ∈ Standard.types, type.body.interfaces?.getD [] = [] := by
    decide +kernel
  refine List.flatMap_eq_nil_iff.mpr fun type mem => ?_
  have none := noInterfaces type (standard type mem)
  obtain ⟨name, description, body⟩ := type
  cases body with
  | object interfaces =>
      rw [show interfaces = [] from none]
      rfl
  | scalar | interface | union | enum | inputObject => rfl

/-- The implementers among arranged types are those among the types. -/
theorem implementers_arrangedTypes (schema : Schema) (interfaceName : Text) :
    (implementers (schema.arrangedTypes order) interfaceName).Perm
      (implementers schema.definedTypes interfaceName) := by
  unfold implementers arrangedTypes
  rw [List.flatMap_map]
  refine List.Perm.flatMap (order.sort_perm NamedType.name schema.definedTypes) fun type _ => ?_
  simpa [implementers] using implementers_arranged type interfaceName

/-- The implementers among types that are in order are in order. -/
theorem implementers_inOrder {types : List NamedType} (inOrder : order.InOrder NamedType.name types)
    (interfaceName : Text) : order.InOrder id (implementers types interfaceName) := by
  have isOwnName : ∀ type : NamedType, ∀ name ∈ implementers [type] interfaceName,
      name = type.name := by
    intro type name mem
    obtain ⟨ownName, description, body⟩ := type
    cases body with
    | object =>
        simp only [implementers, List.flatMap_cons, List.flatMap_nil, List.append_nil,
          List.mem_map] at mem
        obtain ⟨_, -, rfl⟩ := mem
        rfl
    | scalar | interface | union | enum | inputObject => simp [implementers] at mem
  have oneByOne : implementers types interfaceName =
      types.flatMap fun type => implementers [type] interfaceName := by
    simp [implementers]
  rw [oneByOne, NameOrder.InOrder, List.pairwise_flatMap]
  constructor
  · intro type _
    apply List.pairwise_of_forall_mem_list
    intro left leftMem right rightMem
    rw [isOwnName type left leftMem, isOwnName type right rightMem]
    exact (Bool.and_eq_true_iff.mp (order.isLevel_self type.name)).1
  · refine inOrder.imp fun {type other} before left leftMem right rightMem => ?_
    rw [isOwnName type left leftMem, isOwnName other right rightMem]
    exact before

/-- What a schema that shows known types says of each of them, and of its directives. -/
theorem introspection_withTypes {ε : Type} {draft : Draft ε} {types : List NamedType}
    {description : Json} (described : (draft.withTypes types).introspection = .ok description) :
    ∃ about directives values, description.get? "__schema" = some about ∧
      about.get? "directives" = some (.array directives) ∧
      about.get? "types" = some (.array values) ∧
      List.Forall₂ (fun directive value =>
        Describe.directive (draft.withTypes types) directive = .ok value)
        draft.directives directives ∧
      List.Forall₂ (fun type value =>
        ∃ flag, Describe.namedType (draft.withTypes types) type flag = .ok value) types values := by
  obtain ⟨-, -, indexed, flags, directives, values, areIndexed, areFlags, areDirectives, areValues,
    rfl⟩ := introspection_eq_ok described
  have showsTypes : (types.map Entry.defined).mapM Describe.typeOf = .ok types := by
    have each : ∀ type ∈ types, (Describe.typeOf ∘ Entry.defined) type = .ok (id type) :=
      fun _ _ => rfl
    rw [List.mapM_map, mapM_eq_ok each, List.map_id]
  obtain rfl := Except.ok.inj (showsTypes.symm.trans areIndexed)
  refine ⟨_, directives, values, Describe.get?_object _ "__schema",
    Describe.get?_object _ "directives", Describe.get?_object _ "types",
    forall₂_of_mapM areDirectives, ?_⟩
  have sameLength := (forall₂_of_mapM areFlags).length_eq
  have told := (forall₂_of_mapM areValues).imp (S := fun entry value => ∃ flag,
    Describe.namedType (draft.withTypes types) entry.1 flag = .ok value) fun entry _ said =>
      ⟨entry.2, said⟩
  rw [← List.forall₂_map_left_iff (f := Prod.fst) (R := fun type value => ∃ flag,
    Describe.namedType (draft.withTypes types) type flag = .ok value),
    List.map_fst_zip (Nat.le_of_eq sameLength)] at told
  exact told

/-- The description of a sorted copy lists the things of the schema in order. -/
theorem tellsSchema_of_sorted {added : List NamedType} {description : Json}
    (standard : ∀ type ∈ added, type ∈ Standard.types ∧ type.name ∉ schema.typeNames)
    (nothing : added = [] ↔ Text.ofString "__Schema" ∈ schema.typeNames)
    (described : ((arrangedDraft order schema).withTypes
      (schema.arrangedTypes order ++ added)).introspection = .ok description) :
    Describe.TellsSchema order schema description := by
  let sorted := (arrangedDraft order schema).withTypes (schema.arrangedTypes order ++ added)
  obtain ⟨about, directives, values, isAbout, areDirectives, areTypes, directivesTold, typesTold⟩ :=
    introspection_withTypes described
  have objects : ∀ name, sorted.implementingObjects name =
      implementers (schema.arrangedTypes order) name := by
    intro name
    have noneAdded := implementers_of_standard (fun type mem => (standard type mem).1) name
    change implementers (schema.arrangedTypes order ++ added) name = _
    unfold implementers at noneAdded ⊢
    rw [List.flatMap_append, noneAdded, List.append_nil]
  have tells : ∀ type flag value, Describe.namedType sorted (type.arranged order) flag = .ok value →
      Describe.TellsType order schema.definedTypes type value := by
    intro type flag value told
    refine Describe.namedType_inOrder ?_ ?_ told
    · rw [objects]
      exact implementers_arrangedTypes schema type.name
    · rw [objects]
      exact implementers_inOrder (arrangedTypes_inOrder order schema) type.name
  let arranged := schema.arrangedTypes order
  have frontTold := (List.forall₂_take_append values arranged added typesTold.flip).flip
  have othersTold := (List.forall₂_drop_append values arranged added typesTold.flip).flip
  have typesInOrder : Describe.ListsInOrder order NamedType.name
      (Describe.TellsType order schema.definedTypes) (some schema.definedTypes)
      (some (.array (values.take arranged.length))) :=
    .of_sort frontTold fun type value ⟨flag, told⟩ => tells type flag value told
  have othersInOrder : List.Forall₂ (Describe.TellsType order schema.definedTypes) added
      (values.drop arranged.length) := by
    refine forall₂_imp_of_mem othersTold standard fun type value isStandard told => ?_
    obtain ⟨flag, told⟩ := told
    rw [← NamedType.arranged_of_standard isStandard.1] at told
    exact tells type flag value told
  refine ⟨about, isAbout, ?_, _, added, _, ?_, typesInOrder, othersInOrder, standard, nothing⟩
  · rw [areDirectives]
    exact .of_sort directivesTold fun _ _ => Describe.directive_inOrder
  · rw [areTypes, List.take_append_drop]

/-- The sorted copy of a closed schema, if it is described, is described in order: the types, the
directives, the locations and arguments of each directive, and within each type, unless it is an
introspection type, the fields, the arguments of each field, the interfaces, the values, the input
fields and the types its values may be of. For an interface the last are the objects of the schema
that say they implement it, each as often as it says so. Only the standard types that the index of
the schema does not hold stand behind the sorted types. -/
theorem sort_describes_in_order (closed : schema.Closed) (unique : schema.typeNames.Nodup)
    {collation : Collation} {comparison : Comparison}
    (isOrder : comparison.nameOrder collation = .ok order) :
    ∃ sorted, schema.sortedBy collation comparison = .ok sorted ∧
      ∀ text, sorted.introspectionText = .ok text → ∃ description,
        Json.parse text = .ok description ∧ Describe.TellsSchema order schema description := by
  obtain ⟨added, nothing, standard, sorts⟩ := sort_closes closed unique
  obtain ⟨sorted, isSorted, isCopy, -⟩ := sorts order
  refine ⟨sorted, ?_, ?_⟩
  · rw [sortedBy, isOrder]
    exact mapError_eq_ok_iff.mpr isSorted
  · intro text isText
    obtain ⟨description, described, rfl⟩ := introspectionText_eq_ok_iff.mp isText
    rw [isCopy] at described
    exact ⟨description, Json.parse_document (isPlain_introspection described),
      tellsSchema_of_sorted standard nothing described⟩

/-- A document of an interface, objects that implement it, a union of them, an enum, an input object
and a directive, with no list in order. -/
def meadowDocument : Text :=
  "type Query { of(kind: Kind, by: Filter): Either all: Animal } " ++
    "interface Animal { size(unit: Kind, exact: Boolean): Int name: String } " ++
    "type Zebra implements Animal { size(unit: Kind, exact: Boolean): Int name: String } " ++
    "type Ant implements Animal { size(unit: Kind, exact: Boolean): Int name: String } " ++
    "union Either = Zebra | Ant enum Kind { WILD TAME } input Filter { most: Int least: Int } " ++
    "directive @seen(on: Int, by: Int) on OBJECT | ENUM"

/-- The copy of the schema of `meadowDocument` is described in order. -/
theorem sort_describes_meadowDocument : ∃ schema sorted text description,
    (Source.document meadowDocument false).read noFiles = .ok schema ∧
    schema.Closed ∧ schema.typeNames.Nodup ∧
    (Comparison.options .null).nameOrder AsciiCollation.key = .ok .byCodePoint ∧
    schema.sortedBy AsciiCollation.key (.options .null) = .ok sorted ∧
    sorted.introspectionText = .ok text ∧ Json.parse text = .ok description ∧
    Describe.TellsSchema .byCodePoint schema description := by
  have succeeds : (do
      let schema ← (Source.document meadowDocument false).read noFiles
      let _ ← schema.introspectionText : Except Fault Unit).toOption = some () := by
    decide +kernel
  obtain ⟨schema, isRead, rest⟩ := bind_eq_ok_iff.mp (eq_ok_of_toOption succeeds)
  obtain ⟨ownText, isOwnText, -⟩ := bind_eq_ok_iff.mp rest
  have intact := Source.read_intact isRead
  have isOrder : (Comparison.options .null).nameOrder AsciiCollation.key = .ok .byCodePoint := rfl
  obtain ⟨sorted, isSorted, inOrder⟩ :=
    sort_describes_in_order intact.closed intact.unique isOrder
  obtain ⟨_, isOrder', sorts⟩ := bind_eq_ok_iff.mp isSorted
  obtain rfl := Except.ok.inj (isOrder.symm.trans isOrder')
  obtain ⟨value, isValue, -⟩ := introspectionText_eq_ok_iff.mp isOwnText
  obtain ⟨text, isText⟩ := exists_introspectionText_iff.mpr
    ((intact.describes_sort (mapError_eq_ok_iff.mp sorts)
      (Source.validation_of_read isRead)).exists_ok_iff.mp ⟨value, isValue⟩)
  obtain ⟨description, isParsed, tells⟩ := inOrder text isText
  exact ⟨schema, sorted, text, description, isRead, intact.closed, intact.unique, isOrder, isSorted,
    isText, isParsed, tells⟩

open Standard in
/-- The types of a small schema, in order by code point. -/
def tidyTypes : List NamedType :=
  [booleanScalar, intScalar,
    ⟨"Query", none, .object [] [⟨"age", .named "Int", [], none, none⟩]⟩, stringScalar,
    directiveIntrospection, directiveLocationIntrospection, enumValueIntrospection,
    fieldIntrospection, inputValueIntrospection, schemaIntrospection, typeIntrospection,
    typeKindIntrospection]

/-- A small schema without directives, taken to be valid, in which everything stands in order; the
type that describes schemas was taken out of its index. -/
def tidy : Schema where
  description := none
  query := some "Query"
  mutation := none
  subscription := none
  directives := []
  types := tidyTypes
  index := (tidyTypes.map .defined).filter fun entry => entry.name ≠ Text.ofString "__Schema"
  validation := some []

/-- The schema refers to nothing that it does not have. -/
theorem tidy_closed : tidy.Closed where
  defined := by
    intro entry mem
    obtain ⟨type, -, rfl⟩ := List.mem_map.mp (List.mem_filter.mp mem).1
    exact ⟨type, rfl⟩
  types := by decide +kernel
  directives := by simp [tidy]
  roots := by
    intro name mem
    have known : ∀ name ∈ tidy.roots.filterMap id, name ∈ tidy.typeNames := by decide +kernel
    exact known name (by simpa using mem)

/-- The draft of the copy of `tidy`, in which nothing has to be arranged. -/
def tidyDraft : Draft SortFault where
  description := none
  query := some "Query"
  mutation := none
  subscription := none
  directives := []
  types := tidy.definedTypes.map .ofType
  isTrusted := true

/-- Its sorted copy is drafted as it is written down here. -/
theorem arrangedDraft_tidy : arrangedDraft .byCodePoint tidy = tidyDraft := by
  have inOrder : NameOrder.byCodePoint.sort NamedType.name tidy.definedTypes = tidy.definedTypes :=
    NameOrder.isOrdered_map_iff.mp (by decide +kernel)
  have partsInOrder : ∀ type ∈ tidy.definedTypes, isIntrospectionType type.name = true ∨
      (typeCollections type).all
        (fun collection => NameOrder.byCodePoint.isOrdered collection.names) = true := by
    decide +kernel
  have unchanged : ∀ type ∈ tidy.definedTypes, type.arranged .byCodePoint = id type := by
    intro type mem
    rcases partsInOrder type mem with introspection | inOrder
    · exact NamedType.arranged_of_introspection introspection
    · exact NamedType.arranged_eq_self (typeCollections_ordered_iff.mp inOrder)
  have sameTypes : tidy.arrangedTypes .byCodePoint = tidy.definedTypes := by
    rw [arrangedTypes, inOrder, List.map_congr_left unchanged, List.map_id]
  have noDirectives : tidy.arrangedDirectives .byCodePoint = [] := by
    simp [arrangedDirectives, tidy]
  rw [arrangedDraft, sameTypes, noDirectives]
  rfl

/-- The types are not always described in order: the type that describes schemas comes back into
the index of the copy of `tidy`, and is described last, though its name comes earlier. -/
theorem sort_describes_tidy_out_of_order : tidy.Closed ∧ tidy.typeNames.Nodup ∧
    ∃ sorted text description about values names,
      tidy.sortedBy AsciiCollation.key (.options .null) = .ok sorted ∧
      sorted.introspectionText = .ok text ∧ Json.parse text = .ok description ∧
      description.get? "__schema" = some about ∧ about.get? "types" = some (.array values) ∧
      List.Forall₂ Describe.Names names values ∧
      ¬ NameOrder.byCodePoint.InOrder id names := by
  have unique : tidy.typeNames.Nodup := by decide +kernel
  have succeeds : (do
      let sorted ← tidyDraft.assemble.mapError Fault.sort
      let _ ← sorted.introspectionText
      return NameOrder.byCodePoint.isOrdered (sorted.types.map NamedType.name) :
        Except Fault Bool).toOption = some false := by
    decide +kernel
  obtain ⟨sorted, assembled, rest⟩ := bind_eq_ok_iff.mp (eq_ok_of_toOption succeeds)
  obtain ⟨text, isText, outOfOrder⟩ := bind_eq_ok_iff.mp rest
  have isSorted : tidy.sort .byCodePoint = .ok sorted := by
    rw [sort_eq_assemble (nodup_definedTypes unique) tidy_closed.resolvable, arrangedDraft_tidy]
    exact mapError_eq_ok_iff.mp assembled
  obtain ⟨-, types, -, -, isCopy⟩ := (sort_eq_ok_iff unique).mp isSorted
  obtain ⟨description, described, rfl⟩ := introspectionText_eq_ok_iff.mp isText
  have parsed := Json.parse_document (isPlain_introspection described)
  rw [isCopy] at described
  obtain ⟨about, -, values, isAbout, -, areTypes, -, told⟩ := introspection_withTypes described
  refine ⟨tidy_closed, unique, sorted, _, description, about, values, types.map NamedType.name,
    mapError_eq_ok_iff.mpr isSorted, isText, parsed, isAbout, areTypes,
    List.forall₂_map_left_iff.mpr (told.imp fun type value described =>
      described.elim fun _ said => Describe.names_of_namedType said), ?_⟩
  rw [← NameOrder.isOrdered_iff, Bool.not_eq_true]
  rw [isCopy] at outOfOrder
  exact pure_eq_ok_iff.mp outOfOrder

end SchemaOrder.Schema
