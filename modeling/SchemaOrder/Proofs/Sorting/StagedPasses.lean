import SchemaOrder.Proofs.Parallel
import SchemaOrder.Proofs.Sorting.SortedDraft
import SchemaOrder.Proofs.Sorting.StagedCollecting

/-!
# The passes of a sorter

A sorter goes twice over the types of a schema before it constructs the sorted copy. Where all parts
of the types are kept, both passes ask nobody: the first one makes replacements, the second one
fills the sorter's table row by row, and the table comes out as `Sorter.partTable` says, or the pass
ends with the same fault. The rows are those that the replacements are promised, and in a desk where
the schema is constructed the replacements stand for the arranged types.
-/

namespace SchemaOrder.Staged

open Schema Sorter Outcome

variable {order : NameOrder} {index : List Target} {leads : Text → Target} {desk later : Desk}
  {sorter : Nat}

namespace LiveType

variable {live : LiveType} {type : NamedType}

/-- Reading all parts of a type that keeps them asks nobody. -/
theorem SettledAs.on_readParts (settled : live.SettledAs desk type) :
    live.readParts.on desk = (.ok (), desk) := by
  obtain ⟨⟨-, -, showsBody⟩, isKept⟩ := settled
  obtain ⟨name, description, body⟩ := live
  dsimp only at showsBody
  generalize type.body = typeBody at showsBody
  cases showsBody with
  | scalar | enum => rfl
  | object holdsInterfaces holdsFields | interface holdsInterfaces holdsFields =>
      obtain ⟨fieldsKept, interfacesKept⟩ := isKept
      rw [readParts, Run.on_bind_ok (Slot.on_read_of_isKept holdsFields fieldsKept),
        Run.on_bind_ok (Slot.on_read_of_isKept holdsInterfaces interfacesKept)]
      rfl
  | union holds | inputObject oneOf holds =>
      rw [readParts, Run.on_bind_ok (Slot.on_read_of_isKept holds isKept)]
      rfl

/-- The parts of a type that keeps them are sorted as those of the type that it shows, and nobody is
asked. -/
theorem SettledAs.on_sortParts (settled : live.SettledAs desk type) :
    (live.sortParts order index).on desk = (Sorter.sortParts order index type, desk) := by
  obtain ⟨⟨sameName, -, showsBody⟩, isKept⟩ := settled
  obtain ⟨name, description, body⟩ := live
  obtain ⟨typeName, typeDescription, typeBody⟩ := type
  dsimp only at sameName showsBody
  subst sameName
  unfold sortParts Sorter.sortParts
  dsimp only
  cases isIntrospectionType name with
  | true => rfl
  | false =>
      simp only [Bool.false_eq_true, if_false]
      cases showsBody with
      | scalar | enum => rfl
      | object holdsInterfaces holdsFields | interface holdsInterfaces holdsFields =>
          obtain ⟨fieldsKept, interfacesKept⟩ := isKept
          dsimp only
          rw [Run.on_bind_ok (Slot.on_read_of_isKept holdsFields fieldsKept), Run.on_ofExcept_bind]
          cases sortFields order index _ with
          | error fault => rfl
          | ok fields =>
              dsimp only
              rw [Run.on_bind_ok (Slot.on_read_of_isKept holdsInterfaces interfacesKept),
                Run.on_ofExcept_bind]
              cases sortReferences order index _ <;> rfl
      | union holds =>
          dsimp only
          rw [Run.on_bind_ok (Slot.on_read_of_isKept holds isKept), Run.on_ofExcept_bind]
          cases sortReferences order index _ <;> rfl
      | inputObject oneOf holds =>
          dsimp only
          rw [Run.on_bind_ok (Slot.on_read_of_isKept holds isKept), Run.on_ofExcept_bind]
          cases sortInputs order index _ <;> rfl

/-- The replacement of a type. Scalars and introspection types are their own ones. -/
def replaced (order : NameOrder) (sorter : Nat) (live : LiveType) : LiveType :=
  if live.isScalar || isIntrospectionType live.name then live
  else { live with body := live.body.promised order sorter }

/-- A replacement has the name of the type. -/
@[simp] theorem name_replaced (order : NameOrder) (sorter : Nat) (live : LiveType) :
    (live.replaced order sorter).name = live.name := by
  unfold replaced
  split <;> rfl

end LiveType

namespace LiveEntry

/-- The replacement of the type of an entry, if the entry is of a kind. -/
def replaced (order : NameOrder) (sorter : Nat) : LiveEntry → Except SortFault LiveType
  | .defined live => .ok (live.replaced order sorter)
  | .kindless name => .error (.unexpectedKind name)

/-- The first pass asks nobody for an entry with all parts kept. -/
theorem Shows.on_allocate {live : LiveEntry} {entry : Entry} (shows : live.Shows desk entry) :
    (allocate order sorter live).on desk = (live.replaced order sorter, desk) := by
  cases shows with
  | kindless name => rfl
  | @defined live type settled =>
      rw [allocate, replaced, LiveType.replaced]
      split
      · rfl
      · rw [Run.on_bind_ok settled.on_readParts]
        rfl

/-- Entries that show types are types that show them. -/
theorem exists_types_of_forall₂ {entries : List LiveEntry} {types : List NamedType}
    (shows : List.Forall₂ (LiveEntry.Shows desk) entries (types.map .defined)) :
    ∃ lives : List LiveType, entries = lives.map .defined ∧
      List.Forall₂ (LiveType.SettledAs desk) lives types := by
  rw [List.forall₂_map_right_iff] at shows
  induction shows with
  | nil => exact ⟨[], rfl, .nil⟩
  | cons first _ inductionHypothesis =>
      cases first with
      | defined settled =>
          obtain ⟨lives, rfl, others⟩ := inductionHypothesis
          exact ⟨_ :: lives, rfl, .cons settled others⟩

/-- The first pass over entries fails as it does for what they show. -/
theorem mapM_replaced_eq_error {lives : List LiveEntry} {entries : List Entry} {fault : SortFault}
    (shows : List.Forall₂ (LiveEntry.Shows desk) lives entries)
    (fails : entries.mapM typeOf = .error fault) :
    lives.mapM (replaced order sorter) = .error fault := by
  have parallel : Parallel Eq (List.Forall₂ fun _ _ => True)
      (lives.mapM (replaced order sorter)) (entries.mapM typeOf) := by
    refine .mapM (shows.imp ?_)
    intro live entry showsEntry
    cases showsEntry with
    | defined settled => exact .ok trivial
    | kindless name => exact .error rfl
  rcases parallel.outcome with ⟨_, _, -, succeeds, -⟩ | ⟨_, _, isError, isFault, rfl⟩
  · cases fails.symm.trans succeeds
  · obtain rfl := Except.error.inj (isFault.symm.trans fails)
    exact isError

end LiveEntry

namespace Desk

variable {rows rows' : PartTable}

/-- A sorter has not constructed its schema yet. -/
def IsOpen (desk : Desk) (sorter : Nat) : Prop :=
  ∀ table replacements, .constructs sorter table replacements ∉ desk.journal

/-- The desk after a sorter has put rows into its table. -/
def fills (desk : Desk) (sorter : Nat) (rows : PartTable) : Desk :=
  { desk with
    tables := Function.update desk.tables sorter (desk.tables sorter ++ rows)
    journal := desk.journal ++ rows.map fun row => .fills sorter row.1 }

/-- Putting in no rows changes nothing. -/
theorem fills_nil (desk : Desk) (sorter : Nat) : desk.fills sorter [] = desk := by
  simp [fills]

/-- Rows may be put in at once. -/
theorem fills_fills (desk : Desk) (sorter : Nat) (rows rows' : PartTable) :
    (desk.fills sorter rows).fills sorter rows' = desk.fills sorter (rows ++ rows') := by
  simp [fills]

/-- The rows stand in the table of the sorter, behind those that were there. -/
@[simp] theorem tables_fills (desk : Desk) (sorter : Nat) (rows : PartTable) :
    (desk.fills sorter rows).tables sorter = desk.tables sorter ++ rows := by
  simp [fills]

/-- Filling a table constructs nothing. -/
theorem IsOpen.fills (isOpen : desk.IsOpen sorter) : (desk.fills sorter rows).IsOpen sorter := by
  intro table replacements mem
  rcases List.mem_append.mp mem with before | filled
  · exact isOpen table replacements before
  · obtain ⟨_, -, impossible⟩ := List.mem_map.mp filled
    cases impossible

/-- Filling the table of a sorter that has constructed nothing leaves what others have promised. -/
theorem IsOpen.grows (isOpen : desk.IsOpen sorter) (rows : PartTable) :
    desk.Grows (desk.fills sorter rows) where
  journal := List.subset_append_left _ _
  kept := List.Subset.refl _
  tables other constructed := by
    obtain ⟨replacements, mem⟩ := constructed
    refine Function.update_of_ne ?_ _ _
    rintro rfl
    exact isOpen _ _ mem

end Desk

/-- The table of several types begins with the row of the first one, if it has any. -/
theorem partTable_cons (type : NamedType) (types : List NamedType) :
    partTable order index (type :: types) = (do
      let parts ← Sorter.sortParts order index type
      let rows ← partTable order index types
      pure ((parts.map fun parts => (type.name, parts)).toList ++ rows)) := by
  unfold partTable
  rw [List.mapM_cons]
  cases Sorter.sortParts order index type with
  | error fault => rfl
  | ok parts =>
      cases types.mapM fun type => do
          return (← Sorter.sortParts order index type).map fun parts => (type.name, parts) with
      | error fault => rfl
      | ok rows => cases parts <;> rfl

/-- The second pass over a type with all parts kept puts its row into the table, if there is one,
or ends as sorting the parts does. -/
theorem on_fill {live : LiveType} {type : NamedType} (settled : live.SettledAs desk type)
    (fresh : type.name ∉ (desk.tables sorter).map Prod.fst) :
    (fill order index sorter live).on desk =
      match Sorter.sortParts order index type with
      | .ok parts => (.ok (),
          desk.fills sorter (parts.map fun parts => (type.name, parts)).toList)
      | .error fault => (.error fault, desk) := by
  unfold fill
  rw [Run.on_bind, settled.on_sortParts]
  cases Sorter.sortParts order index type with
  | error fault => rfl
  | ok parts =>
      cases parts with
      | none => exact congrArg (Prod.mk _) (desk.fills_nil sorter).symm
      | some parts =>
          dsimp only
          rw [settled.shows.name, Run.on_bind_ok (Run.on_modify _ _), Run.on_note,
            Named.insert_of_fresh fresh]
          rfl

/-- The second pass over types with all parts kept fills the table as far as it comes. It comes to
the end where there is a table of the types that are shown, and to the same fault otherwise. -/
theorem on_forM_fill (order : NameOrder) (index : List Target) {lives : List LiveType}
    {types : List NamedType} (settled : List.Forall₂ (LiveType.SettledAs desk) lives types)
    (isOpen : desk.IsOpen sorter) (unique : (types.map NamedType.name).Nodup)
    (fresh : ∀ type ∈ types, type.name ∉ (desk.tables sorter).map Prod.fst) :
    match partTable order index types with
    | .ok rows => (lives.forM (fill order index sorter)).on desk = (.ok (), desk.fills sorter rows)
    | .error fault => ∃ rows,
        (lives.forM (fill order index sorter)).on desk =
          (.error fault, desk.fills sorter rows) := by
  induction lives generalizing types desk with
  | nil =>
      cases settled
      exact congrArg (Prod.mk _) (desk.fills_nil sorter).symm
  | cons live lives inductionHypothesis =>
      obtain _ | @⟨_, type, _, types, first, others⟩ := settled
      obtain ⟨freshFirst, freshOthers⟩ := List.forall_mem_cons.mp fresh
      obtain ⟨notAmong, uniqueOthers⟩ := List.nodup_cons.mp unique
      have filled : (fill order index sorter live).on desk = _ := on_fill first freshFirst
      have begins : (live :: lives).forM (fill order index sorter) =
          fill order index sorter live >>= fun _ => lives.forM (fill order index sorter) := rfl
      rw [partTable_cons, begins]
      generalize Sorter.sortParts order index type = parts? at filled ⊢
      cases parts? with
      | error fault =>
          exact ⟨[], by rw [Run.on_bind_error filled, Desk.fills_nil]⟩
      | ok parts =>
          let row : PartTable := (parts.map fun parts => (type.name, parts)).toList
          have rowName : ∀ entry ∈ row, entry.1 = type.name := by
            intro entry mem
            obtain ⟨parts, -, rfl⟩ := Option.map_eq_some_iff.mp (Option.mem_toList.mp mem)
            rfl
          have goesOn := @inductionHypothesis (desk.fills sorter row) types
            (others.imp fun _ _ isSettled => isSettled.grows (isOpen.grows row)) isOpen.fills
            uniqueOthers fun other mem inTable => by
              rw [Desk.tables_fills, List.map_append, List.mem_append] at inTable
              rcases inTable with before | now
              · exact freshOthers other mem before
              · obtain ⟨entry, entryMem, sameName⟩ := List.mem_map.mp now
                rw [rowName entry entryMem] at sameName
                exact notAmong (sameName ▸ List.mem_map_of_mem mem)
          rw [Run.on_bind_ok filled]
          generalize partTable order index types = rows? at goesOn ⊢
          cases rows? with
          | error fault =>
              obtain ⟨rows, ends⟩ := goesOn
              exact ⟨row ++ rows, by rw [ends, Desk.fills_fills]⟩
          | ok rows =>
              change _ = (Except.ok (), desk.fills sorter (row ++ rows))
              rw [goesOn, Desk.fills_fills]

/-- What is worth something was not promised by a sorter that has constructed nothing. -/
theorem Part.Holds.promisedBy_eq_nil {α : Type} {slot : Slot α} {type : Text} {part : Part α}
    {value : α} (holds : part.Holds desk slot type value) (isOpen : desk.IsOpen sorter)
    (collection : Collection) : part.promisedBy sorter collection = [] := by
  cases part with
  | present there => rfl
  | promised other =>
      obtain ⟨⟨replacements, mem⟩, -⟩ := holds
      refine if_neg ?_
      rintro rfl
      exact isOpen _ _ mem

namespace LiveType

variable {live : LiveType} {type : NamedType}

/-- A sorter that has constructed nothing has promised no type that shows another one anything. -/
theorem Shows.promise?_eq_none (shows : live.Shows desk type) (isOpen : desk.IsOpen sorter) :
    live.promise? sorter = none := by
  obtain ⟨-, -, showsBody⟩ := shows
  obtain ⟨name, description, body⟩ := live
  dsimp only at showsBody
  generalize type.body = typeBody at showsBody
  refine if_pos ?_
  cases showsBody with
  | scalar | enum => rfl
  | object holdsInterfaces holdsFields | interface holdsInterfaces holdsFields =>
      simp [promisedBy, holdsInterfaces.promisedBy_eq_nil isOpen,
        holdsFields.promisedBy_eq_nil isOpen]
  | union holds | inputObject oneOf holds => simp [promisedBy, holds.promisedBy_eq_nil isOpen]

/-- What the replacement of a type is promised is the row of the type that is shown. -/
theorem SettledAs.promise?_replaced (settled : live.SettledAs desk type)
    (isOpen : desk.IsOpen sorter) : (live.replaced order sorter).promise? sorter =
      (rowOf order leads type).map fun row => (row.1, row.2.collections) := by
  have own := settled.shows.promise?_eq_none isOpen
  obtain ⟨⟨sameName, -, showsBody⟩, -⟩ := settled
  unfold rowOf arrangedParts
  obtain ⟨name, description, body⟩ := live
  obtain ⟨typeName, typeDescription, typeBody⟩ := type
  dsimp only at sameName showsBody ⊢
  subst sameName
  cases introspection : isIntrospectionType name with
  | true => simpa [replaced, introspection] using own
  | false =>
      cases showsBody <;>
        simp [replaced, isScalar, introspection, LiveBody.promised, promise?, promisedBy,
          Part.promisedBy, Body.arranged, partsOf, SortedParts.collections]

/-- Once a schema is constructed with the row of a type in the table, the replacement of the type
stands for the arranged type. -/
theorem SettledAs.replaced_standsFor (settled : live.SettledAs desk type)
    (names : ∀ name, (leads name).name = name) (constructed : desk.HasConstructed sorter)
    (row : Named.find? Prod.fst type.name (desk.tables sorter) = rowOf order leads type) :
    StandsFor desk sorter (live.replaced order sorter) (.ofType (type.arranged order)) := by
  have own : StandsFor desk sorter live (.ofType type) := settled.standsFor
  obtain ⟨⟨sameName, sameDescription, showsBody⟩, -⟩ := settled
  obtain ⟨name, description, body⟩ := live
  obtain ⟨typeName, typeDescription, typeBody⟩ := type
  dsimp only at sameName sameDescription showsBody row
  subst sameName sameDescription
  cases introspection : isIntrospectionType name with
  | true =>
      rw [NamedType.arranged_of_introspection introspection]
      simpa [replaced, introspection] using own
  | false =>
      rw [NamedType.arranged_of_not_introspection introspection]
      simp only [rowOf, arrangedParts, introspection, Bool.false_eq_true, if_false] at row
      refine ⟨_, rfl, ?_⟩
      cases showsBody with
      | scalar specifiedBy =>
          simp only [replaced, isScalar, Bool.true_or, if_true]
          exact ⟨⟨rfl, rfl, .scalar specifiedBy⟩, trivial⟩
      | enum values =>
          simp only [replaced, isScalar, introspection, Bool.or_self, Bool.false_eq_true, if_false]
          exact ⟨⟨rfl, rfl, .enum _⟩, trivial⟩
      | object | interface =>
          simp only [Body.arranged, partsOf, Option.map_some] at row
          simp only [replaced, isScalar, introspection, Bool.or_self, Bool.false_eq_true, if_false]
          refine ⟨⟨rfl, rfl, ?_⟩, .inr rfl, .inr rfl⟩
          constructor
          · exact ⟨constructed, by
              simp [Slot.interfaces, deferredInterfaces, row, Except.map,
                Target.map_name_leads names]⟩
          · exact ⟨constructed, by
              simp [Slot.fields, deferredFields, row, Except.map,
                LinkedField.map_unlinked_linked names]⟩
      | union =>
          simp only [Body.arranged, partsOf, Option.map_some] at row
          simp only [replaced, isScalar, introspection, Bool.or_self, Bool.false_eq_true, if_false]
          exact ⟨⟨rfl, rfl, .union ⟨constructed, by
            simp [Slot.members, deferredMembers, row, Except.map,
              Target.map_name_leads names]⟩⟩, .inr rfl⟩
      | inputObject oneOf =>
          simp only [Body.arranged, partsOf, Option.map_some] at row
          simp only [replaced, isScalar, introspection, Bool.or_self, Bool.false_eq_true, if_false]
          exact ⟨⟨rfl, rfl, .inputObject oneOf ⟨constructed, by
            simp [Slot.inputs, deferredInputs, row, Except.map,
              LinkedInput.map_unlinked_linked names]⟩⟩, .inr rfl⟩

end LiveType

/-- The replacement of a type is the object that stands for the type that is shown. -/
theorem LiveType.Shows.target_replaced {live : LiveType} {type : NamedType}
    (shows : live.Shows desk type) (order : NameOrder) (sorter : Nat) :
    (live.replaced order sorter).target = targetOf type := by
  obtain ⟨sameName, -, showsBody⟩ := shows
  have isScalar : (live.replaced order sorter).isScalar = decide (type.kind = .scalar) := by
    unfold replaced
    obtain ⟨name, description, body⟩ := live
    obtain ⟨typeName, typeDescription, typeBody⟩ := type
    dsimp only at showsBody ⊢
    cases showsBody <;> cases isIntrospectionType name <;> rfl
  rw [target, targetOf, isScalar, name_replaced, sameName]
  simp only [decide_eq_true_eq]

/-- Replacements are the objects that stand for the types that are shown. -/
theorem targets_replaced {lives : List LiveType} {types : List NamedType}
    (settled : List.Forall₂ (LiveType.SettledAs desk) lives types) :
    (lives.map (LiveType.replaced order sorter)).map LiveType.target = types.map targetOf := by
  rw [List.map_map]
  exact (map_eq_map_of_forall₂ settled fun live type isSettled =>
    (isSettled.shows.target_replaced order sorter).symm).symm

namespace LiveSchema

variable {live : LiveSchema} {schema : Schema}

/-- The first pass over a schema: the replacements of its types, if all of its entries are of
kinds. -/
theorem Shows.on_allocate (shows : live.Shows desk schema) (order : NameOrder) (sorter : Nat) :
    match sortedTypes order schema with
    | .ok types => ∃ lives : List LiveType,
        order.sort LiveEntry.name live.index = lives.map .defined ∧
          List.Forall₂ (LiveType.SettledAs desk) lives types ∧
          ((order.sort LiveEntry.name live.index).mapM (allocate order sorter)).on desk =
            (.ok (lives.map (LiveType.replaced order sorter)), desk)
    | .error fault =>
        ((order.sort LiveEntry.name live.index).mapM (allocate order sorter)).on desk =
          (.error fault, desk) := by
  have sorted : List.Forall₂ (LiveEntry.Shows desk) (order.sort LiveEntry.name live.index)
      (order.sort Entry.name schema.index) :=
    NameOrder.forall₂_sort (fun _ _ showsEntry => showsEntry.name) shows.index
  have still : ∀ entry ∈ order.sort LiveEntry.name live.index,
      (allocate order sorter entry).on desk = (entry.replaced order sorter, desk) := by
    intro entry mem
    obtain ⟨shown, -, showsEntry⟩ := exists_of_mem_forall₂ sorted.flip mem
    exact showsEntry.on_allocate
  rw [Run.on_mapM_of_still still]
  unfold sortedTypes
  cases kinds : (order.sort Entry.name schema.index).mapM typeOf with
  | error fault => exact congrArg (·, desk) (LiveEntry.mapM_replaced_eq_error sorted kinds)
  | ok types =>
      rw [mapM_typeOf_eq_ok_iff.mp kinds] at sorted
      obtain ⟨lives, areLives, settled⟩ := LiveEntry.exists_types_of_forall₂ sorted
      refine ⟨lives, areLives, settled, congrArg (·, desk) ?_⟩
      rw [areLives, List.mapM_map]
      exact mapM_eq_ok fun _ _ => rfl

/-- Both passes over a schema fill the table of a sorter as far as they come. They come to the end
where there is a draft of the sorted copy, and to the same fault otherwise. -/
theorem Shows.on_prepare (shows : live.Shows desk schema) (isOpen : desk.IsOpen sorter)
    (isEmpty : desk.tables sorter = []) (unique : (schema.definedTypes.map NamedType.name).Nodup)
    (order : NameOrder) :
    match sortedDraft order schema with
    | .ok draft => ∃ lives table,
        List.Forall₂ (LiveType.SettledAs desk) lives
          (order.sort NamedType.name schema.definedTypes) ∧
          partTable order (sortedIndex order schema)
            (order.sort NamedType.name schema.definedTypes) = .ok table ∧
          (live.prepare order sorter).on desk = (.ok {
            description := draft.description
            query := draft.query.map Target.name
            mutation := draft.mutation.map Target.name
            subscription := draft.subscription.map Target.name
            directives := draft.directives.map LinkedDirective.unlinked
            types := lives.map (LiveType.replaced order sorter)
            isTrusted := draft.isTrusted }, desk.fills sorter table)
    | .error fault => ∃ rows,
        (live.prepare order sorter).on desk = (.error fault, desk.fills sorter rows) := by
  have allocated := shows.on_allocate order sorter
  unfold sortedDraft prepare
  cases sorted : sortedTypes order schema with
  | error fault =>
      rw [sorted] at allocated
      exact ⟨[], by rw [Run.on_bind_error allocated, Desk.fills_nil]⟩
  | ok types =>
      rw [sorted] at allocated
      obtain ⟨lives, areLives, settled, allocates⟩ := allocated
      obtain ⟨-, rfl⟩ := sortedTypes_eq_ok_iff.mp sorted
      have uniqueTypes :
          ((order.sort NamedType.name schema.definedTypes).map NamedType.name).Nodup :=
        NameOrder.nodup_map_sort.mpr unique
      have sameTypes :
          (order.sort LiveEntry.name live.index).filterMap LiveEntry.type? = lives := by
        rw [areLives, List.filterMap_map]
        exact List.filterMap_some
      have filled := on_forM_fill order (sortedIndex order schema) settled isOpen uniqueTypes
        (by simp [isEmpty])
      have goesOn {α β : Type} (value : α) (next : α → Except SortFault β) :
          (Except.ok value >>= next) = next value := rfl
      rw [Run.on_bind_ok allocates, goesOn]
      dsimp only
      rw [targets_replaced settled, sameTypes, shows.directives, shows.query, shows.mutation,
        shows.subscription, shows.description, shows.validation]
      rw [← sortedIndex]
      cases isTable : partTable order (sortedIndex order schema)
          (order.sort NamedType.name schema.definedTypes) with
      | error fault =>
          rw [isTable] at filled
          obtain ⟨rows, ends⟩ := filled
          exact ⟨rows, Run.on_bind_error ends⟩
      | ok table =>
          rw [isTable] at filled
          rw [Run.on_bind_ok filled]
          rcases (order.sort Directive.name schema.directives).mapM
            (sortDirective order (sortedIndex order schema)) with fault | directives
          · exact ⟨table, rfl⟩
          rcases replaceRoot (sortedIndex order schema) schema.query with fault | query
          · exact ⟨table, rfl⟩
          rcases replaceRoot (sortedIndex order schema) schema.mutation with fault | mutation
          · exact ⟨table, rfl⟩
          rcases replaceRoot (sortedIndex order schema) schema.subscription with
            fault | subscription
          · exact ⟨table, rfl⟩
          exact ⟨lives, table, settled, rfl, rfl⟩

end LiveSchema

end SchemaOrder.Staged
