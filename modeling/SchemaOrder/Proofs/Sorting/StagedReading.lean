import SchemaOrder.Proofs.Outcome
import SchemaOrder.Proofs.Sorting.StagedRun

/-!
# Reading promised parts

A promised part can be read once its sorter has constructed its schema: the sorter's table has the
part and stays as it is. This module holds what a type shows at a desk, how that outlasts whatever
happens later, and what reading does: nothing, if the part is kept, and otherwise one request to
the sorter, which its table answers.
-/

namespace SchemaOrder.Staged

open Schema Sorter Outcome

variable {α β : Type} {desk middle later : Desk} {sorter : Nat}

namespace Run

variable {first : Run α} {next : α → Run β}

/-- A run that gives a value leaves the desk as it is. -/
@[simp] theorem on_pure (value : α) (desk : Desk) :
    (pure value : Run α).on desk = (.ok value, desk) :=
  rfl

/-- So does a run that gives an outcome. -/
@[simp] theorem on_ofExcept (outcome : Except SortFault α) (desk : Desk) :
    (ofExcept outcome).on desk = (outcome, desk) :=
  rfl

/-- So does a run that looks at the desk. -/
@[simp] theorem on_get (desk : Desk) : (get : Run Desk).on desk = (.ok desk, desk) :=
  rfl

/-- A run that changes the desk gives nothing else. -/
@[simp] theorem on_modify (change : Desk → Desk) (desk : Desk) :
    (modify change : Run Unit).on desk = (.ok (), change desk) :=
  rfl

/-- An event is written into the journal behind all others. -/
@[simp] theorem on_note (event : Event) (desk : Desk) :
    (note event).on desk = (.ok (), { desk with journal := desk.journal ++ [event] }) :=
  rfl

/-- What follows a run starts with the desk that the run leaves, if there is a result. -/
theorem on_bind (first : Run α) (next : α → Run β) (desk : Desk) :
    (first >>= next).on desk =
      match first.on desk with
      | (.ok value, middle) => (next value).on middle
      | (.error fault, middle) => (.error fault, middle) := by
  unfold Run.on ExceptT.run StateT.run
  simp only [bind, ExceptT.bind, ExceptT.mk, StateT.bind, ExceptT.bindCont]
  cases first desk with
  | mk result middle => cases result <;> rfl

/-- What follows a run with a result goes on with it. -/
theorem on_bind_ok {value : α} (ends : first.on desk = (.ok value, middle)) :
    (first >>= next).on desk = (next value).on middle := by
  rw [on_bind, ends]

/-- What follows a run that failed does not take place. -/
theorem on_bind_error {fault : SortFault} (ends : first.on desk = (.error fault, middle)) :
    (first >>= next).on desk = (.error fault, middle) := by
  rw [on_bind, ends]

/-- What follows a computation without regard to the desk. -/
theorem on_ofExcept_bind (outcome : Except SortFault α) (next : α → Run β) (desk : Desk) :
    (ofExcept outcome >>= next).on desk =
      match outcome with
      | .ok value => (next value).on desk
      | .error fault => (.error fault, desk) := by
  rw [on_bind, on_ofExcept]
  cases outcome <;> rfl

/-- A function of the result of a run. -/
theorem on_map_ok {change : α → β} {value : α} (ends : first.on desk = (.ok value, middle)) :
    (change <$> first).on desk = (.ok (change value), middle) := by
  rw [map_eq_pure_bind, on_bind_ok ends, on_pure]

/-- Runs that leave the desk as it is, one for every thing. -/
theorem on_mapM_of_still {things : List α} {run : α → Run β} {outcome : α → Except SortFault β}
    (still : ∀ thing ∈ things, (run thing).on desk = (outcome thing, desk)) :
    (things.mapM run).on desk = (things.mapM outcome, desk) := by
  induction things with
  | nil => rfl
  | cons head tail inductionHypothesis =>
      obtain ⟨stillHead, stillTail⟩ := List.forall_mem_cons.mp still
      rw [List.mapM_cons, List.mapM_cons, on_bind, stillHead]
      cases outcome head with
      | error fault => rfl
      | ok value =>
          dsimp only
          rw [on_bind, inductionHypothesis stillTail]
          cases tail.mapM outcome <;> rfl

end Run

namespace Desk

/-- A sorter has constructed its schema, and its table is the one of that moment. -/
def HasConstructed (desk : Desk) (sorter : Nat) : Prop :=
  ∃ replacements, .constructs sorter (desk.tables sorter) replacements ∈ desk.journal

/-- A desk becomes another one: what was written or kept stays, and so do the tables of the sorters
that have constructed their schemas. -/
structure Grows (desk later : Desk) : Prop where
  journal : desk.journal ⊆ later.journal
  kept : desk.kept ⊆ later.kept
  tables : ∀ sorter, desk.HasConstructed sorter → later.tables sorter = desk.tables sorter

/-- What a sorter has constructed stays so. -/
theorem Grows.hasConstructed (grows : desk.Grows later) (constructed : desk.HasConstructed sorter) :
    later.HasConstructed sorter := by
  obtain ⟨replacements, mem⟩ := constructed
  exact ⟨replacements, grows.tables sorter ⟨replacements, mem⟩ ▸ grows.journal mem⟩

/-- A desk grows from one step to the next. -/
theorem Grows.trans (first : desk.Grows middle) (second : middle.Grows later) :
    desk.Grows later where
  journal := List.Subset.trans first.journal second.journal
  kept := List.Subset.trans first.kept second.kept
  tables sorter constructed :=
    (second.tables sorter (first.hasConstructed constructed)).trans
      (first.tables sorter constructed)

end Desk

/-- A sorter is asked for a collection that stands in the row of the type in a table. -/
def Event.IsAnswered (sorter : Nat) (table : PartTable) (event : Event) : Prop :=
  ∃ type collection parts, event = .asks sorter type collection ∧ (type, parts) ∈ table ∧
    collection ∈ parts.collections

/-- From a desk to another one nothing happens but that one sorter is asked for parts that its table
has. -/
structure Desk.Asks (sorter : Nat) (desk later : Desk) : Prop where
  sorters : later.sorters = desk.sorters
  tables : later.tables = desk.tables
  kept : desk.kept ⊆ later.kept
  journal : ∃ asked, later.journal = desk.journal ++ asked ∧
    ∀ event ∈ asked, event.IsAnswered sorter (desk.tables sorter)

namespace Desk.Asks

/-- Where nothing happens nobody is asked. -/
theorem refl (sorter : Nat) (desk : Desk) : desk.Asks sorter desk :=
  ⟨rfl, rfl, List.Subset.refl _, [], (List.append_nil _).symm, nofun⟩

/-- What is asked in two turns may be asked in one. -/
theorem trans (first : desk.Asks sorter middle) (second : middle.Asks sorter later) :
    desk.Asks sorter later := by
  obtain ⟨asked, isAsked, answered⟩ := first.journal
  obtain ⟨asked', isAsked', answered'⟩ := second.journal
  refine ⟨second.sorters.trans first.sorters, second.tables.trans first.tables,
    List.Subset.trans first.kept second.kept, asked ++ asked', ?_, ?_⟩
  · rw [isAsked', isAsked, List.append_assoc]
  · rw [first.tables] at answered'
    exact List.forall_mem_append.mpr ⟨answered, answered'⟩

/-- A desk at which one sorter is asked grows. -/
theorem grows (asks : desk.Asks sorter later) : desk.Grows later where
  journal := by
    obtain ⟨asked, isAsked, -⟩ := asks.journal
    exact isAsked ▸ List.subset_append_left _ _
  kept := asks.kept
  tables _ _ := by rw [asks.tables]

end Desk.Asks

namespace Part

/-- A part is worth a value: it is there, or the sorter that promised it has constructed its schema
and its table has the part. -/
def Holds (desk : Desk) (slot : Slot α) (type : Text) : Part α → α → Prop
  | .present there, value => there = value
  | .promised sorter, value =>
    desk.HasConstructed sorter ∧ slot.take (desk.tables sorter) type = .ok value

/-- A part is there, or it was asked for and is kept. -/
def IsKept (desk : Desk) (slot : Slot α) (type : Text) : Part α → Prop
  | .present _ => True
  | .promised sorter => (sorter, type, slot.collection) ∈ desk.kept

/-- A part is kept, or one certain sorter has promised it. -/
def IsDue (desk : Desk) (sorter : Nat) (slot : Slot α) (type : Text) (part : Part α) : Prop :=
  part.IsKept desk slot type ∨ part = .promised sorter

variable {slot : Slot α} {type : Text} {part : Part α} {value other : α}

/-- What a part is worth outlasts what happens later. -/
theorem Holds.grows (holds : part.Holds desk slot type value) (grows : desk.Grows later) :
    part.Holds later slot type value := by
  cases part with
  | present there => exact holds
  | promised sorter =>
      obtain ⟨constructed, taken⟩ := holds
      exact ⟨grows.hasConstructed constructed, grows.tables sorter constructed ▸ taken⟩

/-- A part is worth one value. -/
theorem Holds.eq (holds : part.Holds desk slot type value)
    (holds' : part.Holds desk slot type other) : value = other := by
  cases part with
  | present there => exact holds.symm.trans holds'
  | promised sorter => exact Except.ok.inj (holds.2.symm.trans holds'.2)

/-- What is kept stays so. -/
theorem IsKept.grows (isKept : part.IsKept desk slot type) (grows : desk.Grows later) :
    part.IsKept later slot type := by
  cases part with
  | present there => trivial
  | promised sorter => exact grows.kept isKept

/-- What is due stays so, if it is not read. -/
theorem IsDue.grows (isDue : part.IsDue desk sorter slot type) (grows : desk.Grows later) :
    part.IsDue later sorter slot type :=
  isDue.imp_left fun isKept => isKept.grows grows

end Part

namespace Slot

variable {slot : Slot α} {type : Text} {part : Part α} {value : α}

/-- Reading a part that is kept asks nobody. -/
theorem on_read_of_isKept (holds : part.Holds desk slot type value)
    (isKept : part.IsKept desk slot type) :
    (slot.read type part).on desk = (.ok value, desk) := by
  cases part with
  | present there =>
      obtain rfl : there = value := holds
      rfl
  | promised sorter =>
      have mem : (sorter, type, slot.collection) ∈ desk.kept := isKept
      rw [read, Run.on_bind_ok (Run.on_get desk), if_pos mem, Run.on_ofExcept, holds.2]

/-- Reading a part that is due asks its sorter at most, which has it, and keeps the part. -/
theorem on_read_of_isDue (holds : part.Holds desk slot type value)
    (isDue : part.IsDue desk sorter slot type) : ∃ later,
      (slot.read type part).on desk = (.ok value, later) ∧ desk.Asks sorter later ∧
        part.IsKept later slot type := by
  by_cases isKept : part.IsKept desk slot type
  · exact ⟨desk, on_read_of_isKept holds isKept, .refl sorter desk, isKept⟩
  obtain rfl := isDue.resolve_left isKept
  have notMem : (sorter, type, slot.collection) ∉ desk.kept := isKept
  obtain ⟨-, taken⟩ := holds
  obtain ⟨parts, mem, inRow⟩ := slot.inRow taken
  refine ⟨{ desk with
    journal := desk.journal ++ [.asks sorter type slot.collection]
    kept := (sorter, type, slot.collection) :: desk.kept }, ?_, ?_, List.mem_cons_self⟩
  · rw [read, Run.on_bind_ok (Run.on_get desk), if_neg notMem, ask,
      Run.on_bind_ok (Run.on_get desk), taken]
    rfl
  · exact ⟨rfl, rfl, List.subset_cons_self _ _, _, rfl,
      List.forall_mem_singleton.mpr ⟨_, _, parts, rfl, mem, inRow⟩⟩

end Slot

/-- A body shows another one: what their parts are worth. -/
inductive LiveBody.Shows (desk : Desk) (type : Text) : LiveBody → Body → Prop where
  | scalar (specifiedBy : Option Text) : Shows desk type (.scalar specifiedBy) (.scalar specifiedBy)
  | object {interfaces : Part (List Text)} {fields : Part (List Field)}
      {theInterfaces : List Text} {theFields : List Field}
      (holdsInterfaces : interfaces.Holds desk .interfaces type theInterfaces)
      (holdsFields : fields.Holds desk .fields type theFields) :
      Shows desk type (.object interfaces fields) (.object theInterfaces theFields)
  | interface {interfaces : Part (List Text)} {fields : Part (List Field)}
      {theInterfaces : List Text} {theFields : List Field}
      (holdsInterfaces : interfaces.Holds desk .interfaces type theInterfaces)
      (holdsFields : fields.Holds desk .fields type theFields) :
      Shows desk type (.interface interfaces fields) (.interface theInterfaces theFields)
  | union {members : Part (List Text)} {theMembers : List Text}
      (holdsMembers : members.Holds desk .members type theMembers) :
      Shows desk type (.union members) (.union theMembers)
  | enum (values : List EnumValue) : Shows desk type (.enum values) (.enum values)
  | inputObject {fields : Part (List InputValue)} {theFields : List InputValue} (oneOf : Json)
      (holdsFields : fields.Holds desk .inputs type theFields) :
      Shows desk type (.inputObject fields oneOf) (.inputObject theFields oneOf)

/-- What a body shows outlasts what happens later. -/
theorem LiveBody.Shows.grows {type : Text} {live : LiveBody} {body : Body}
    (shows : live.Shows desk type body) (grows : desk.Grows later) :
    live.Shows later type body := by
  cases shows with
  | scalar specifiedBy => exact .scalar specifiedBy
  | object interfaces fields => exact .object (interfaces.grows grows) (fields.grows grows)
  | interface interfaces fields => exact .interface (interfaces.grows grows) (fields.grows grows)
  | union members => exact .union (members.grows grows)
  | enum values => exact .enum values
  | inputObject oneOf fields => exact .inputObject oneOf (fields.grows grows)

namespace LiveType

/-- A type shows another one at a desk. -/
structure Shows (desk : Desk) (live : LiveType) (type : NamedType) : Prop where
  name : live.name = type.name
  description : live.description = type.description
  body : live.body.Shows desk live.name type.body

/-- All parts of a type are of a kind. -/
def EachPart (holds : ∀ {α : Type}, Slot α → Part α → Prop) (live : LiveType) : Prop :=
  match live.body with
  | .object interfaces fields | .interface interfaces fields =>
    holds .fields fields ∧ holds .interfaces interfaces
  | .union members => holds .members members
  | .inputObject fields _ => holds .inputs fields
  | .scalar _ | .enum _ => True

/-- All parts of a type are there, or were asked for and are kept. -/
def IsKept (desk : Desk) (live : LiveType) : Prop :=
  live.EachPart fun slot part => part.IsKept desk slot live.name

/-- All parts of a type are kept, or one certain sorter has promised them. -/
def IsDue (desk : Desk) (sorter : Nat) (live : LiveType) : Prop :=
  live.EachPart fun slot part => part.IsDue desk sorter slot live.name

variable {live : LiveType} {type other : NamedType}

/-- A type goes on to show what it shows. -/
theorem Shows.grows (shows : live.Shows desk type) (grows : desk.Grows later) :
    live.Shows later type :=
  ⟨shows.name, shows.description, shows.body.grows grows⟩

/-- What all parts are follows from what they are otherwise. -/
theorem EachPart.imp {holds weaker : ∀ {α : Type}, Slot α → Part α → Prop}
    (each : live.EachPart holds) (implies : ∀ {α : Type} (slot : Slot α) (part : Part α),
      holds slot part → weaker slot part) : live.EachPart weaker := by
  obtain ⟨name, description, body⟩ := live
  cases body with
  | scalar | enum => trivial
  | object | interface => exact ⟨implies _ _ each.1, implies _ _ each.2⟩
  | union | inputObject => exact implies _ _ each

/-- Parts that are kept stay so. -/
theorem IsKept.grows (isKept : live.IsKept desk) (grows : desk.Grows later) : live.IsKept later :=
  isKept.imp fun _ _ partKept => partKept.grows grows

/-- Parts that are kept or promised stay so. -/
theorem IsDue.grows (isDue : live.IsDue desk sorter) (grows : desk.Grows later) :
    live.IsDue later sorter :=
  isDue.imp fun _ _ partDue => partDue.grows grows

/-- What is kept is due to any sorter. -/
theorem IsKept.isDue (isKept : live.IsKept desk) (sorter : Nat) : live.IsDue desk sorter :=
  isKept.imp fun _ _ partKept => .inl partKept

/-- A type with all parts there shows itself. -/
theorem ofType_shows (desk : Desk) (type : NamedType) : (ofType type).Shows desk type := by
  refine ⟨rfl, rfl, ?_⟩
  obtain ⟨name, description, body⟩ := type
  cases body with
  | scalar specifiedBy => exact .scalar specifiedBy
  | object => exact .object rfl rfl
  | interface => exact .interface rfl rfl
  | union => exact .union rfl
  | enum values => exact .enum values
  | inputObject fields oneOf => exact .inputObject oneOf rfl

/-- A type with all parts there keeps them. -/
theorem ofType_isKept (desk : Desk) (type : NamedType) : (ofType type).IsKept desk := by
  obtain ⟨name, description, body⟩ := type
  cases body with
  | scalar | enum => trivial
  | object | interface => exact ⟨trivial, trivial⟩
  | union | inputObject => trivial

/-- A type shows one type. -/
theorem Shows.eq (shows : live.Shows desk type) (shows' : live.Shows desk other) :
    type = other := by
  obtain ⟨name, description, body⟩ := shows
  obtain ⟨name', description', body'⟩ := shows'
  have sameBody : type.body = other.body := by
    cases type with
    | mk typeName typeDescription typeBody =>
    cases other with
    | mk otherName otherDescription otherBody =>
    dsimp only at body body' ⊢
    generalize live.body = liveBody at body body'
    cases body with
    | scalar | enum => cases body'; rfl
    | object interfaces fields =>
        cases body' with
        | object interfaces' fields' => rw [interfaces.eq interfaces', fields.eq fields']
    | interface interfaces fields =>
        cases body' with
        | interface interfaces' fields' => rw [interfaces.eq interfaces', fields.eq fields']
    | union members =>
        cases body' with
        | union members' => rw [members.eq members']
    | inputObject oneOf fields =>
        cases body' with
        | inputObject oneOf' fields' => rw [fields.eq fields']
  cases type
  cases other
  simp only at name name' description description' sameBody
  rw [← name, ← description, sameBody, name', description']

/-- A type shows another one at a desk, and all its parts are kept. -/
structure SettledAs (desk : Desk) (live : LiveType) (type : NamedType) : Prop where
  shows : live.Shows desk type
  isKept : live.IsKept desk

/-- A type that has all parts kept goes on to show what it shows. -/
theorem SettledAs.grows (settled : live.SettledAs desk type) (grows : desk.Grows later) :
    live.SettledAs later type :=
  ⟨settled.shows.grows grows, settled.isKept.grows grows⟩

/-- A type of which all parts are there shows itself at any desk. -/
theorem ofType_settledAs (desk : Desk) (type : NamedType) : (ofType type).SettledAs desk type :=
  ⟨ofType_shows desk type, ofType_isKept desk type⟩

end LiveType

/-- An entry shows another one, with all parts kept. -/
inductive LiveEntry.Shows (desk : Desk) : LiveEntry → Entry → Prop where
  | defined {live : LiveType} {type : NamedType} (settled : live.SettledAs desk type) :
      Shows desk (.defined live) (.defined type)
  | kindless (name : Text) : Shows desk (.kindless name) (.kindless name)

namespace LiveEntry.Shows

variable {live : LiveEntry} {entry other : Entry}

/-- An entry goes on to show what it shows. -/
theorem grows (shows : live.Shows desk entry) (grows : desk.Grows later) :
    live.Shows later entry := by
  cases shows with
  | defined settled => exact .defined (settled.grows grows)
  | kindless name => exact .kindless name

/-- An entry has the name of what it shows. -/
theorem name (shows : live.Shows desk entry) : live.name = entry.name := by
  cases shows with
  | defined settled => exact settled.shows.name
  | kindless name => rfl

/-- An entry shows one thing only. -/
theorem eq (shows : live.Shows desk entry) (shows' : live.Shows desk other) : entry = other := by
  cases shows with
  | defined settled =>
      cases shows' with
      | defined settled' => rw [settled.shows.eq settled'.shows]
  | kindless name => cases shows'; rfl

end LiveEntry.Shows

/-- A schema shows another one at a desk, with all parts of its types kept. -/
structure LiveSchema.Shows (desk : Desk) (live : LiveSchema) (schema : Schema) : Prop where
  description : live.description = schema.description
  query : live.query = schema.query
  mutation : live.mutation = schema.mutation
  subscription : live.subscription = schema.subscription
  directives : live.directives = schema.directives
  types : List.Forall₂ (LiveType.SettledAs desk) live.types schema.types
  index : List.Forall₂ (LiveEntry.Shows desk) live.index schema.index
  validation : live.validation = schema.validation

namespace LiveSchema

variable {live : LiveSchema} {schema other : Schema}

/-- A schema goes on to show what it shows, whatever else happens at the desk. -/
theorem Shows.grows (shows : live.Shows desk schema) (grows : desk.Grows later) :
    live.Shows later schema :=
  { shows with
    types := shows.types.imp fun _ _ settled => settled.grows grows
    index := shows.index.imp fun _ _ showsEntry => showsEntry.grows grows }

/-- A schema shows one schema. -/
theorem Shows.eq (shows : live.Shows desk schema) (shows' : live.Shows desk other) :
    schema = other := by
  have sameTypes := eq_of_forall₂ (fun first second => first.shows.eq second.shows)
    shows.types shows'.types
  have sameIndex := eq_of_forall₂ (fun first second => first.eq second) shows.index shows'.index
  cases schema
  cases other
  obtain ⟨rfl, rfl, rfl, rfl, rfl, -, -, rfl⟩ := shows
  obtain ⟨description, query, mutation, subscription, directives, -, -, validation⟩ := shows'
  dsimp only at description query mutation subscription directives validation sameTypes sameIndex
  rw [description, query, mutation, subscription, directives, validation, sameTypes, sameIndex]

/-- A schema with all parts there shows itself. -/
theorem ofSchema_shows (desk : Desk) (schema : Schema) : (ofSchema schema).Shows desk schema where
  description := rfl
  query := rfl
  mutation := rfl
  subscription := rfl
  directives := rfl
  types := List.forall₂_map_left_iff.mpr (List.forall₂_same.mpr fun type _ =>
    LiveType.ofType_settledAs desk type)
  index := List.forall₂_map_left_iff.mpr (List.forall₂_same.mpr fun entry _ => by
    cases entry with
    | defined type => exact .defined (LiveType.ofType_settledAs desk type)
    | kindless name => exact .kindless name)
  validation := rfl

end LiveSchema

end SchemaOrder.Staged
