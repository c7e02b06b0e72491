import SchemaOrder.Proofs.Sorting.Rejection
import SchemaOrder.Proofs.Sorting.RepeatedSorting
import SchemaOrder.Proofs.Sorting.StagedPasses

/-!
# Promises are kept

At the moment at which a schema is constructed, its sorter's table has exactly what the replacements
are promised, and only then is the sorter asked for anything. A run that ends with a fault hands out
no replacement. `Reachable.keepsPromises` says so of every run at every desk that can be reached,
whether the schema that is sorted was given, was damaged, or is the copy of an earlier run, and that
the run comes to what `Schema.sort` says.
-/

namespace SchemaOrder.Staged

open Schema Sorter Outcome

variable {desk later : Desk} {sorter : Nat} {table : PartTable} {replacements : List LiveType}
  {journal : List Event}

/-- A table keeps the promises of its sorter: it has exactly the collections that the replacements
are promised, and these lead to replacements only, and to no original that was replaced. -/
structure Keeps (sorter : Nat) (table : PartTable) (replacements : List LiveType) : Prop where
  exact : table.map (fun row => (row.1, row.2.collections)) =
    replacements.filterMap (LiveType.promise? sorter)
  resolved : ∀ row ∈ table, ∀ target ∈ row.2.targets, target ∈ replacements.map LiveType.target

/-- What has to come before an event. A table is filled and a schema constructed before the sorter
has constructed any, a table is complete when its schema is constructed, a sorter is asked only for
what it had when it constructed its schema, and none is asked for what it does not have. -/
def Event.Follows (earlier : List Event) : Event → Prop
  | .fills sorter _ => ∀ table replacements, .constructs sorter table replacements ∉ earlier
  | .constructs sorter table replacements =>
    (∀ table replacements, .constructs sorter table replacements ∉ earlier) ∧
      Keeps sorter table replacements
  | .asks sorter type collection => ∃ table replacements parts,
    .constructs sorter table replacements ∈ earlier ∧ (type, parts) ∈ table ∧
      collection ∈ parts.collections
  | .misses .. => False

/-- A journal in which everything follows what has to come before it. -/
inductive Orderly : List Event → Prop where
  | start : Orderly []
  | next {journal : List Event} {event : Event} (earlier : Orderly journal)
      (follows : event.Follows journal) : Orderly (journal ++ [event])

/-- A sorter that has constructed nothing may fill its table. -/
theorem Orderly.append_fills (orderly : Orderly journal)
    (isOpen : ∀ table replacements, .constructs sorter table replacements ∉ journal)
    (rows : PartTable) : Orderly (journal ++ rows.map fun row => .fills sorter row.1) := by
  induction rows generalizing journal with
  | nil => rwa [List.map_nil, List.append_nil]
  | cons row rows inductionHypothesis =>
      rw [List.map_cons, List.append_cons]
      refine inductionHypothesis (orderly.next isOpen) fun table replacements mem => ?_
      rcases List.mem_append.mp mem with before | now
      · exact isOpen table replacements before
      · cases List.mem_singleton.mp now

/-- A sorter that has constructed its schema may be asked for what its table had then. -/
theorem Orderly.append_asks {asked : List Event} (orderly : Orderly journal)
    (constructed : .constructs sorter table replacements ∈ journal)
    (answered : ∀ event ∈ asked, event.IsAnswered sorter table) : Orderly (journal ++ asked) := by
  induction asked generalizing journal with
  | nil => rwa [List.append_nil]
  | cons event asked inductionHypothesis =>
      obtain ⟨⟨type, collection, parts, rfl, mem, inRow⟩, others⟩ :=
        List.forall_mem_cons.mp answered
      rw [List.append_cons]
      exact inductionHypothesis
        (orderly.next ⟨table, replacements, parts, constructed, mem, inRow⟩)
        (List.mem_append_left _ constructed) others

namespace Desk

/-- From a desk to another one a new sorter fills its table and constructs a schema, whose
replacements it has kept its promises to, and is asked for nothing but parts in that table, and
only afterwards. -/
structure Constructs (desk later : Desk) : Prop where
  sorters : later.sorters = desk.sorters + 1
  journal : ∃ table replacements asked, later.journal =
      desk.journal ++ ((table.map fun row => Event.fills desk.sorters row.1) ++
        .constructs desk.sorters table replacements :: asked) ∧
    later.tables desk.sorters = table ∧ Keeps desk.sorters table replacements ∧
    ∀ event ∈ asked, event.IsAnswered desk.sorters table

/-- From a desk to another one a new sorter fills its table, and nothing else happens: it hands out
no replacement, and nobody is asked for anything. -/
structure GivesUp (desk later : Desk) : Prop where
  sorters : later.sorters = desk.sorters + 1
  journal : ∃ rows : PartTable, later.journal =
    desk.journal ++ rows.map fun row => Event.fills desk.sorters row.1

/-- A desk at which everything has followed what has to come before it. -/
structure Sound (desk : Desk) : Prop where
  orderly : Orderly desk.journal
  numbered : ∀ sorter table replacements, .constructs sorter table replacements ∈ desk.journal →
    sorter < desk.sorters

namespace Sound

/-- The next sorter has constructed nothing. -/
theorem isOpen (sound : desk.Sound) : desk.IsOpen desk.sorters := fun _ _ mem =>
  absurd (sound.numbered _ _ _ mem) (Nat.lt_irrefl _)

/-- A run that gives up does no harm. -/
theorem givesUp (sound : desk.Sound) (gives : desk.GivesUp later) : later.Sound := by
  obtain ⟨rows, isJournal⟩ := gives.journal
  refine ⟨isJournal ▸ sound.orderly.append_fills sound.isOpen rows, ?_⟩
  intro sorter table replacements mem
  rw [isJournal] at mem
  rw [gives.sorters]
  rcases List.mem_append.mp mem with before | filled
  · exact Nat.lt_succ_of_lt (sound.numbered sorter table replacements before)
  · obtain ⟨_, -, impossible⟩ := List.mem_map.mp filled
    cases impossible

/-- A run that constructs a schema does no harm. -/
theorem constructs (sound : desk.Sound) (constructs : desk.Constructs later) : later.Sound := by
  obtain ⟨table, replacements, asked, isJournal, -, keeps, answered⟩ := constructs.journal
  have isOpen : ∀ other others, .constructs desk.sorters other others ∉
      desk.journal ++ table.map fun row => Event.fills desk.sorters row.1 :=
    (sound.isOpen.fills : (desk.fills desk.sorters table).IsOpen desk.sorters)
  rw [List.append_cons, ← List.append_assoc, ← List.append_assoc] at isJournal
  constructor
  · rw [isJournal]
    have filled := sound.orderly.append_fills sound.isOpen table
    have constructed : Orderly (_ ++ [Event.constructs desk.sorters table replacements]) :=
      filled.next ⟨isOpen, keeps⟩
    exact constructed.append_asks (List.mem_append_right _ (List.mem_singleton_self _)) answered
  · intro sorter other others mem
    rw [isJournal] at mem
    rw [constructs.sorters]
    simp only [List.mem_append, List.mem_singleton, List.mem_map] at mem
    rcases mem with ((before | ⟨_, -, impossible⟩) | now) | later
    · exact Nat.lt_succ_of_lt (sound.numbered sorter other others before)
    · cases impossible
    · cases now
      exact Nat.lt_succ_self _
    · obtain ⟨_, _, _, impossible, -⟩ := answered _ later
      cases impossible

end Sound

/-- The desk at which a new sorter begins. -/
def started (desk : Desk) : Desk :=
  { desk with
    sorters := desk.sorters + 1
    tables := Function.update desk.tables desk.sorters [] }

/-- The desk after a sorter has constructed a schema of replacements. -/
def constructed (desk : Desk) (sorter : Nat) (replacements : List LiveType) : Desk :=
  { desk with
    journal := desk.journal ++ [.constructs sorter (desk.tables sorter) replacements] }

/-- A new sorter leaves what others have promised. -/
theorem Sound.grows_started (sound : desk.Sound) : desk.Grows desk.started where
  journal := List.Subset.refl _
  kept := List.Subset.refl _
  tables sorter hasConstructed := by
    obtain ⟨replacements, mem⟩ := hasConstructed
    exact Function.update_of_ne (Nat.ne_of_lt (sound.numbered _ _ _ mem)) _ _

/-- Constructing a schema leaves what others have promised. -/
theorem grows_constructed (desk : Desk) (sorter : Nat) (replacements : List LiveType) :
    desk.Grows (desk.constructed sorter replacements) where
  journal := List.subset_append_left _ _
  kept := List.Subset.refl _
  tables _ _ := rfl

/-- A sorter that constructs its schema has constructed it then. -/
theorem hasConstructed_constructed (desk : Desk) (sorter : Nat) (replacements : List LiveType) :
    (desk.constructed sorter replacements).HasConstructed sorter :=
  ⟨replacements, List.mem_append_right _ (List.mem_singleton_self _)⟩

end Desk

variable {order : NameOrder} {lives : List LiveType} {types : List NamedType}

/-- The parts of a body lead to what the names that the body leads to stand for. -/
theorem targets_of_partsOf {leads : Text → Target} {body : Body} {parts : SortedParts}
    (isParts : partsOf leads body = some parts) : parts.targets = body.references.map leads := by
  cases body with
  | scalar | enum => cases isParts
  | union members =>
      cases isParts
      rfl
  | object interfaces fields | interface interfaces fields =>
      cases isParts
      rw [SortedParts.targets, Body.references, fieldTargets_linked, List.map_append]
  | inputObject fields oneOf =>
      cases isParts
      exact inputTargets_linked leads fields

/-- The table of types that are looked up among their replacements keeps the promises to these. -/
theorem keeps_of_partTable (settled : List.Forall₂ (LiveType.SettledAs desk) lives types)
    (isOpen : desk.IsOpen sorter)
    (isTable : partTable order (types.map targetOf) types = .ok table) :
    Keeps sorter table (lives.map (LiveType.replaced order sorter)) := by
  rw [partTable_eq, guarded_eq_ok_iff] at isTable
  obtain ⟨known, rfl⟩ := isTable
  let leads := leadsIn (types.map targetOf)
  constructor
  · have promises : types.map (fun type =>
          (rowOf order leads type).map fun row => (row.1, row.2.collections)) =
        (lives.map (LiveType.replaced order sorter)).map (LiveType.promise? sorter) := by
      rw [List.map_map]
      exact map_eq_map_of_forall₂ settled fun live type isSettled =>
        (isSettled.promise?_replaced isOpen).symm
    calc (types.filterMap (rowOf order leads)).map (fun row => (row.1, row.2.collections))
        = types.filterMap fun type =>
            (rowOf order leads type).map fun row => (row.1, row.2.collections) :=
          List.map_filterMap
      _ = (types.map fun type =>
            (rowOf order leads type).map fun row => (row.1, row.2.collections)).filterMap id :=
          by rw [List.filterMap_map]; rfl
      _ = ((lives.map (LiveType.replaced order sorter)).map
            (LiveType.promise? sorter)).filterMap id := by rw [promises]
      _ = (lives.map (LiveType.replaced order sorter)).filterMap (LiveType.promise? sorter) :=
          List.filterMap_map
  · intro row mem target targetMem
    obtain ⟨type, typeMem, isRow⟩ := List.mem_filterMap.mp mem
    obtain ⟨parts, isParts, rfl⟩ := Option.map_eq_some_iff.mp isRow
    unfold arrangedParts at isParts
    split at isParts
    · cases isParts
    · next ordinary =>
      rw [targets_of_partsOf isParts] at targetMem
      obtain ⟨name, nameMem, rfl⟩ := List.mem_map.mp targetMem
      rw [targets_replaced settled]
      refine leadsIn_mem (known name (List.mem_flatMap.mpr ⟨type, typeMem, ?_⟩))
      exact NamedType.mem_lookups.mpr
        ⟨by simpa using ordinary, Body.mem_references_arranged.mp nameMem⟩

/-- Once the schema is constructed, the replacements stand for the types of the draft. -/
theorem replacements_standFor {leads : Text → Target} (names : ∀ name, (leads name).name = name)
    (settled : List.Forall₂ (LiveType.SettledAs desk) lives types)
    (unique : (types.map NamedType.name).Nodup) (constructed : desk.HasConstructed sorter)
    (isTable : desk.tables sorter = types.filterMap (rowOf order leads)) :
    List.Forall₂ (StandsFor desk sorter) (lives.map (LiveType.replaced order sorter))
      ((types.map (NamedType.arranged order)).map .ofType) := by
  rw [List.map_map, List.forall₂_map_left_iff, List.forall₂_map_right_iff]
  refine (forall₂_mem settled).imp fun live type ⟨⟨_, mem⟩, isSettled⟩ => ?_
  exact isSettled.replaced_standsFor names constructed (isTable ▸ find?_row order leads unique mem)

/-- Once the schema is constructed, all that was drafted stands for the draft of the sorted copy. -/
theorem standsFor_arrangedDraft {schema : Schema}
    (settled : List.Forall₂ (LiveType.SettledAs desk) lives
      (order.sort NamedType.name schema.definedTypes))
    (unique : (schema.definedTypes.map NamedType.name).Nodup)
    (constructed : desk.HasConstructed sorter)
    (isTable : partTable order (sortedIndex order schema)
      (order.sort NamedType.name schema.definedTypes) = .ok (desk.tables sorter)) :
    LiveDraft.StandsFor desk sorter
      ⟨(arrangedObjects order schema).unlinked.description,
        (arrangedObjects order schema).unlinked.query,
        (arrangedObjects order schema).unlinked.mutation,
        (arrangedObjects order schema).unlinked.subscription,
        (arrangedObjects order schema).unlinked.directives,
        lives.map (LiveType.replaced order sorter),
        (arrangedObjects order schema).unlinked.isTrusted⟩ (arrangedDraft order schema) := by
  rw [partTable_eq, guarded_eq_ok_iff] at isTable
  have standFor := replacements_standFor (name_leadsIn (sortedIndex order schema)) settled
    (NameOrder.nodup_map_sort.mpr unique) constructed isTable.2
  rw [unlinked_arrangedObjects]
  exact ⟨rfl, rfl, rfl, rfl, rfl, standFor, rfl⟩

namespace LiveSchema

variable {live : LiveSchema} {schema : Schema}

/-- A run of a new sorter over a schema with all parts kept comes to what `Schema.sort` says of the
schema that is shown. Where this is a sorted copy, a schema is constructed that shows it. -/
theorem Shows.on_sort (shows : live.Shows desk schema) (sound : desk.Sound)
    (unique : (schema.definedTypes.map NamedType.name).Nodup) (order : NameOrder) :
    match schema.sort order with
    | .ok sorted => ∃ later copy, (live.sort order).on desk = (.ok copy, later) ∧
        copy.Shows later sorted ∧ (sorted.definedTypes.map NamedType.name).Nodup ∧
        desk.Constructs later ∧ desk.Grows later
    | .error fault => ∃ later, (live.sort order).on desk = (.error fault, later) ∧
        desk.GivesUp later ∧ desk.Grows later := by
  have isOpen : desk.started.IsOpen desk.sorters := sound.isOpen
  have isEmpty : desk.started.tables desk.sorters = [] := Function.update_self ..
  have prepared := (shows.grows sound.grows_started).on_prepare isOpen isEmpty unique order
  have begins : (live.sort order).on desk = _ :=
    Run.on_bind_ok (show newSorter.on desk = (.ok desk.sorters, desk.started) from rfl)
  rw [begins, Schema.sort]
  cases drafts : sortedDraft order schema with
  | error fault =>
      rw [drafts] at prepared
      obtain ⟨rows, ends⟩ := prepared
      refine ⟨desk.started.fills desk.sorters rows, Run.on_bind_error ends, ⟨rfl, rows, rfl⟩, ?_⟩
      exact sound.grows_started.trans (isOpen.grows rows)
  | ok draft =>
      rw [drafts] at prepared
      obtain ⟨lives, table, settled, isTable, ends⟩ := prepared
      obtain ⟨resolvable, rfl⟩ := (sortedDraft_eq_ok_iff unique).mp drafts
      let filled := desk.started.fills desk.sorters table
      let replacements := lives.map (LiveType.replaced order desk.sorters)
      let moment := filled.constructed desk.sorters replacements
      have momentTable : moment.tables desk.sorters = table := by
        change filled.tables desk.sorters = table
        rw [Desk.tables_fills, isEmpty, List.nil_append]
      have growsFilled : desk.started.Grows filled := isOpen.grows table
      have growsMoment : desk.started.Grows moment :=
        growsFilled.trans (filled.grows_constructed desk.sorters replacements)
      have standsFor := standsFor_arrangedDraft
        (settled.imp fun _ _ isSettled => isSettled.grows growsMoment) unique
        (filled.hasConstructed_constructed desk.sorters replacements) (momentTable.symm ▸ isTable)
      obtain ⟨later, copy, collected, assembles, asks, assembled, recollects, copyShows⟩ :=
        standsFor.assemble rfl
      have sorts : (Except.ok (arrangedObjects order schema) >>= fun draft =>
          draft.construct .repeatedType) = .ok ((arrangedDraft order schema).withTypes collected) :=
        (construct_arrangedObjects unique resolvable).trans assembled
      rw [sorts]
      refine ⟨later, copy, ?_, copyShows, ?_, ⟨?_, ?_⟩, ?_⟩
      · rw [Run.on_bind_ok ends, Run.on_bind_ok (Run.on_get _), Run.on_bind_ok (Run.on_note _ _)]
        exact assembles
      · rw [Draft.definedTypes_withTypes]
        exact recollects.unique ((nodup_arrangedTypes order).mpr unique)
      · exact asks.sorters
      · obtain ⟨asked, isAsked, answered⟩ := asks.journal
        refine ⟨table, replacements, asked, ?_, ?_, keeps_of_partTable settled isOpen isTable, ?_⟩
        · rw [isAsked]
          simp [filled, Desk.constructed, Desk.fills, Desk.started]
        · rw [asks.tables, momentTable]
        · rwa [momentTable] at answered
      · exact sound.grows_started.trans (growsMoment.trans asks.grows)

end LiveSchema

/-- The desks that can be reached, with the schemas that there are: any schema may be given, the
index and all else that is not a type may be damaged, and a schema may be sorted by any order, which
may give a copy or be refused. -/
inductive Reachable : Desk → List LiveSchema → Prop where
  | start : Reachable .initial []
  | given {desk : Desk} {lives : List LiveSchema} (earlier : Reachable desk lives) (schema : Schema)
      (unique : (schema.definedTypes.map NamedType.name).Nodup) :
      Reachable desk (.ofSchema schema :: lives)
  | damaged {desk : Desk} {lives : List LiveSchema} {live : LiveSchema}
      (earlier : Reachable desk lives) (mem : live ∈ lives) (other : LiveSchema)
      (types : ∀ type ∈ other.types, type ∈ live.types)
      (index : ∀ entry ∈ other.index, entry ∈ live.index ∨ ∃ name, entry = .kindless name)
      (unique : ((other.index.filterMap LiveEntry.type?).map LiveType.name).Nodup) :
      Reachable desk (other :: lives)
  | copied {desk later : Desk} {lives : List LiveSchema} {live copy : LiveSchema}
      {order : NameOrder} (earlier : Reachable desk lives) (mem : live ∈ lives)
      (ends : (live.sort order).on desk = (.ok copy, later)) : Reachable later (copy :: lives)
  | refused {desk later : Desk} {lives : List LiveSchema} {live : LiveSchema} {fault : SortFault}
      {order : NameOrder} (earlier : Reachable desk lives) (mem : live ∈ lives)
      (ends : (live.sort order).on desk = (.error fault, later)) : Reachable later lives

/-- A schema shows one in which every name leads to one type. -/
def LiveSchema.IsShown (desk : Desk) (live : LiveSchema) : Prop :=
  ∃ schema, live.Shows desk schema ∧ (schema.definedTypes.map NamedType.name).Nodup

namespace LiveSchema

variable {live other : LiveSchema}

/-- A schema goes on to show one in which every name leads to one type. -/
theorem IsShown.grows (isShown : live.IsShown desk) (grows : desk.Grows later) :
    live.IsShown later := by
  obtain ⟨schema, shows, unique⟩ := isShown
  exact ⟨schema, shows.grows grows, unique⟩

/-- The types of entries have the names of the types that are shown. -/
theorem names_of_index {entries : List LiveEntry} {shown : List Entry}
    (shows : List.Forall₂ (LiveEntry.Shows desk) entries shown) :
    (shown.filterMap Entry.type?).map NamedType.name =
      (entries.filterMap LiveEntry.type?).map LiveType.name := by
  induction shows with
  | nil => rfl
  | cons first _ inductionHypothesis =>
      cases first with
      | kindless name => exact inductionHypothesis
      | defined settled => exact congrArg₂ List.cons settled.shows.name.symm inductionHypothesis

/-- A damaged schema shows a damaged one. -/
theorem IsShown.damaged (isShown : live.IsShown desk)
    (types : ∀ type ∈ other.types, type ∈ live.types)
    (index : ∀ entry ∈ other.index, entry ∈ live.index ∨ ∃ name, entry = .kindless name)
    (unique : ((other.index.filterMap LiveEntry.type?).map LiveType.name).Nodup) :
    other.IsShown desk := by
  obtain ⟨schema, shows, -⟩ := isShown
  have eachType : ∀ type ∈ other.types, ∃ shown, True ∧ type.SettledAs desk shown := by
    intro type mem
    obtain ⟨shown, -, settled⟩ := exists_of_mem_forall₂ shows.types.flip (types type mem)
    exact ⟨shown, trivial, settled⟩
  have eachEntry : ∀ entry ∈ other.index, ∃ shown, True ∧ entry.Shows desk shown := by
    intro entry mem
    rcases index entry mem with inIndex | ⟨name, rfl⟩
    · obtain ⟨shown, -, showsEntry⟩ := exists_of_mem_forall₂ shows.index.flip inIndex
      exact ⟨shown, trivial, showsEntry⟩
    · exact ⟨.kindless name, trivial, .kindless name⟩
  obtain ⟨shownTypes, settled, -⟩ := exists_forall₂_of_forall eachType
  obtain ⟨shownIndex, showsIndex, -⟩ := exists_forall₂_of_forall eachEntry
  refine ⟨⟨other.description, other.query, other.mutation, other.subscription, other.directives,
    shownTypes, shownIndex, other.validation⟩, ⟨rfl, rfl, rfl, rfl, rfl, settled, showsIndex, rfl⟩,
    ?_⟩
  rw [definedTypes, names_of_index showsIndex]
  exact unique

end LiveSchema

namespace Reachable

variable {lives : List LiveSchema}

/-- What every run leaves: a desk at which all was in order, and schemas with all parts kept. -/
theorem sound (reachable : Reachable desk lives) :
    desk.Sound ∧ ∀ live ∈ lives, live.IsShown desk := by
  induction reachable with
  | start => exact ⟨⟨.start, nofun⟩, nofun⟩
  | @given desk lives _ schema unique inductionHypothesis =>
      obtain ⟨sound, shown⟩ := inductionHypothesis
      exact ⟨sound, List.forall_mem_cons.mpr
        ⟨⟨schema, LiveSchema.ofSchema_shows desk schema, unique⟩, shown⟩⟩
  | damaged _ mem other types index unique inductionHypothesis =>
      obtain ⟨sound, shown⟩ := inductionHypothesis
      exact ⟨sound, List.forall_mem_cons.mpr ⟨(shown _ mem).damaged types index unique, shown⟩⟩
  | @copied desk later lives live copy order _ mem ends inductionHypothesis =>
      obtain ⟨sound, shown⟩ := inductionHypothesis
      obtain ⟨schema, shows, unique⟩ := shown live mem
      have runs := shows.on_sort sound unique order
      cases sorts : schema.sort order with
      | error fault =>
          rw [sorts] at runs
          obtain ⟨_, ends', -⟩ := runs
          cases ends.symm.trans ends'
      | ok sorted =>
          rw [sorts] at runs
          obtain ⟨_, _, ends', copyShows, uniqueCopy, constructs, grows⟩ := runs
          cases ends.symm.trans ends'
          exact ⟨sound.constructs constructs, List.forall_mem_cons.mpr
            ⟨⟨sorted, copyShows, uniqueCopy⟩,
              fun other otherMem => (shown other otherMem).grows grows⟩⟩
  | @refused desk later lives live fault order _ mem ends inductionHypothesis =>
      obtain ⟨sound, shown⟩ := inductionHypothesis
      obtain ⟨schema, shows, unique⟩ := shown live mem
      have runs := shows.on_sort sound unique order
      cases sorts : schema.sort order with
      | ok sorted =>
          rw [sorts] at runs
          obtain ⟨_, _, ends', -⟩ := runs
          cases ends.symm.trans ends'
      | error fault =>
          rw [sorts] at runs
          obtain ⟨_, ends', givesUp, grows⟩ := runs
          cases ends.symm.trans ends'
          exact ⟨sound.givesUp givesUp, fun other otherMem => (shown other otherMem).grows grows⟩

/-- At every desk that can be reached everything has followed what has to come before it: no sorter
was asked for a part before it constructed its schema, or for a part that it did not have. And every
run that begins there, over any of the schemas by any order, comes to what `Schema.sort` says of the
schema that is shown. If this is a sorted copy, a new sorter constructs it of replacements to which
it has kept its promises. If it is a fault, this is not that a part is absent, and the sorter hands
out no replacement. -/
theorem keepsPromises (reachable : Reachable desk lives) :
    Orderly desk.journal ∧ ∀ live ∈ lives, ∃ schema, live.Shows desk schema ∧ ∀ order,
      match schema.sort order with
      | .ok sorted => ∃ later copy, (live.sort order).on desk = (.ok copy, later) ∧
          copy.Shows later sorted ∧ desk.Constructs later
      | .error fault => (∀ name, fault ≠ .absentPart name) ∧
          ∃ later, (live.sort order).on desk = (.error fault, later) ∧ desk.GivesUp later := by
  obtain ⟨sound, shown⟩ := reachable.sound
  refine ⟨sound.orderly, fun live mem => ?_⟩
  obtain ⟨schema, shows, unique⟩ := shown live mem
  refine ⟨schema, shows, fun order => ?_⟩
  have runs := shows.on_sort sound unique order
  have outcome := @sort_outcome order schema unique
  cases sorts : schema.sort order with
  | ok sorted =>
      rw [sorts] at runs
      obtain ⟨later, copy, ends, copyShows, -, constructs, -⟩ := runs
      exact ⟨later, copy, ends, copyShows, constructs⟩
  | error fault =>
      rw [sorts] at runs outcome
      obtain ⟨later, ends, givesUp, -⟩ := runs
      refine ⟨?_, later, ends, givesUp⟩
      rintro name rfl
      cases kindless : schema.firstKindless? order with
      | some other =>
          rw [kindless] at outcome
          cases outcome
      | none =>
          rw [kindless] at outcome
          cases unknown : schema.firstUnknown? order with
          | some other =>
              rw [unknown] at outcome
              cases outcome
          | none =>
              rw [unknown] at outcome
              obtain ⟨_, impossible⟩ := outcome
              cases impossible

/-- The schema `starter` is sorted by the length of names, and its copy by code point. -/
theorem keepsPromises_starter : ∃ middle later copy again,
    ((LiveSchema.ofSchema starter).sort .byLength).on .initial = (.ok copy, middle) ∧
      (copy.sort .byCodePoint).on middle = (.ok again, later) ∧
      Desk.initial.Constructs middle ∧ middle.Constructs later ∧ Orderly later.journal := by
  have unique := starter_hasUniqueNames.index
  obtain ⟨_, -, -, sorts⟩ := sort_closes starter_closed unique
  obtain ⟨sorted, sortsFirst, -, closedSorted, uniqueSorted, -⟩ := sorts .byLength
  obtain ⟨_, -, -, sortsAgain⟩ := sort_closes closedSorted uniqueSorted
  obtain ⟨twice, sortsTwice, -⟩ := sortsAgain .byCodePoint
  rw [typeNames_eq_map_definedTypes starter_closed.defined] at unique
  have given : Reachable .initial [.ofSchema starter] := .given .start starter unique
  obtain ⟨schema, shows, runs⟩ := (keepsPromises given).2 _ (List.mem_singleton_self _)
  obtain rfl := shows.eq (LiveSchema.ofSchema_shows .initial starter)
  have first := runs .byLength
  rw [sortsFirst] at first
  obtain ⟨middle, copy, ends, copyShows, constructs⟩ := first
  have reached := given.copied (List.mem_singleton_self _) ends
  obtain ⟨schema, shows, runs⟩ := (keepsPromises reached).2 copy List.mem_cons_self
  obtain rfl := shows.eq copyShows
  have second := runs .byCodePoint
  rw [sortsTwice] at second
  obtain ⟨later, again, endsAgain, -, constructsAgain⟩ := second
  exact ⟨middle, later, copy, again, ends, endsAgain, constructs, constructsAgain,
    (keepsPromises (reached.copied List.mem_cons_self endsAgain)).1⟩

end Reachable

end SchemaOrder.Staged
