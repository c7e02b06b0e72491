import SchemaOrder.Proofs.Schema.Assembly
import SchemaOrder.Proofs.Sorting.StagedReading

/-!
# Collecting types with promised parts

Once a schema is constructed, all types that can be reached from it are collected, and collecting
a type reads its parts. Where every part is kept or promised by the sorter of the schema, this goes
as collecting does for the types that are shown: it finds the same types in the same order, asks
nobody but that sorter, and leaves no part of a collected type that is not kept.
-/

namespace SchemaOrder.Staged

open Schema Sorter Outcome

variable {base desk later : Desk} {sorter : Nat}

/-- A type stands for the draft of what it shows, and its parts are kept or promised by a sorter. -/
def StandsFor (desk : Desk) (sorter : Nat) (live : LiveType) (draft : TypeDraft SortFault) : Prop :=
  ∃ type, draft = .ofType type ∧ live.Shows desk type ∧ live.IsDue desk sorter

/-- A type goes on to stand for its draft. -/
theorem StandsFor.grows {live : LiveType} {draft : TypeDraft SortFault}
    (stands : StandsFor desk sorter live draft) (grows : desk.Grows later) :
    StandsFor later sorter live draft := by
  obtain ⟨type, isDraft, shows, isDue⟩ := stands
  exact ⟨type, isDraft, shows.grows grows, isDue.grows grows⟩

/-- A type with all parts kept stands for what it shows. -/
theorem LiveType.SettledAs.standsFor {live : LiveType} {type : NamedType}
    (settled : live.SettledAs desk type) : StandsFor desk sorter live (.ofType type) :=
  ⟨type, rfl, settled.shows, settled.isKept.isDue sorter⟩

/-- What a name leads to outlasts what happens later. -/
theorem rel_grows {live? : Option LiveType} {draft? : Option (TypeDraft SortFault)}
    (rel : Option.Rel (StandsFor desk sorter) live? draft?) (grows : desk.Grows later) :
    Option.Rel (StandsFor later sorter) live? draft? := by
  cases rel with
  | none => exact .none
  | some stands => exact .some (stands.grows grows)

/-- Types that are collected show the ones that are collected elsewhere. -/
structure LiveCollected.Shows (desk : Desk) (live : LiveCollected) (state : Collected SortFault) :
    Prop where
  known : live.known = state.known
  collected : List.Forall₂ (fun live draft => ∃ type, draft = .ofType type ∧ live.Shows desk type)
    live.collected state.collected

/-- Types that are collected go on to show what they show. -/
theorem LiveCollected.Shows.grows {live : LiveCollected} {state : Collected SortFault}
    (shows : live.Shows desk state) (grows : desk.Grows later) : live.Shows later state where
  known := shows.known
  collected := shows.collected.imp fun _ _ ⟨type, isDraft, showsType⟩ =>
    ⟨type, isDraft, showsType.grows grows⟩

/-- A run collects what is collected elsewhere. It asks nobody but one sorter, and the types that it
adds have their parts afterwards. -/
def Collects (sorter : Nat) (desk : Desk) (state : LiveCollected) (run : Run LiveCollected)
    (finish : Collected SortFault) : Prop :=
  ∃ later found, run.on desk = (.ok found, later) ∧ desk.Asks sorter later ∧
    found.Shows later finish ∧ ∀ type ∈ found.collected, type ∈ state.collected ∨ type.IsKept later

namespace Collects

variable {live found : LiveCollected} {state middle finish : Collected SortFault}
  {run : Run LiveCollected}

/-- Nothing is collected. -/
theorem pure (shows : live.Shows desk state) : Collects sorter desk live (pure live) state :=
  ⟨desk, live, rfl, .refl sorter desk, shows, fun _ mem => .inl mem⟩

/-- Collecting goes on. -/
theorem bind {next : LiveCollected → Run LiveCollected}
    (first : Collects sorter desk live run middle)
    (second : ∀ later found, desk.Asks sorter later → found.Shows later middle →
      Collects sorter later found (next found) finish) :
    Collects sorter desk live (run >>= next) finish := by
  obtain ⟨between, found, ends, asks, shows, keeps⟩ := first
  obtain ⟨later, found', ends', asks', shows', keeps'⟩ := second between found asks shows
  refine ⟨later, found', ?_, asks.trans asks', shows', fun type mem => ?_⟩
  · rw [Run.on_bind_ok ends, ends']
  · rcases keeps' type mem with before | isKept
    · exact (keeps type before).imp_right fun isKept => isKept.grows asks'.grows
    · exact .inr isKept

/-- Collecting goes through things one by one, as it does elsewhere through related ones. -/
theorem foldlM {α β : Type} {related : α → β → Prop}
    {step : LiveCollected → α → Run LiveCollected}
    {step' : Collected SortFault → β → Except SortFault (Collected SortFault)}
    (each : ∀ {desk live state finish} thing other, base.Asks sorter desk → related thing other →
      live.Shows desk state → step' state other = .ok finish →
      Collects sorter desk live (step live thing) finish)
    {things : List α} {others : List β} (areRelated : List.Forall₂ related things others)
    (asks : base.Asks sorter desk) (shows : live.Shows desk state)
    (folds : others.foldlM step' state = .ok finish) :
    Collects sorter desk live (things.foldlM step live) finish := by
  induction areRelated generalizing desk live state with
  | nil =>
      cases folds
      exact .pure shows
  | cons isRelated _ inductionHypothesis =>
      rw [List.foldlM_cons] at folds ⊢
      obtain ⟨middle, isStep, rest⟩ := bind_eq_ok_iff.mp folds
      exact (each _ _ asks isRelated shows isStep).bind fun later found asks' shows' =>
        inductionHypothesis (asks.trans asks') shows' rest

/-- Collecting goes through names one by one. -/
theorem foldlM_names {step : LiveCollected → Text → Run LiveCollected}
    {step' : Collected SortFault → Text → Except SortFault (Collected SortFault)}
    (each : ∀ {desk live state finish} name, base.Asks sorter desk → live.Shows desk state →
      step' state name = .ok finish → Collects sorter desk live (step live name) finish)
    {names : List Text} (asks : base.Asks sorter desk) (shows : live.Shows desk state)
    (folds : names.foldlM step' state = .ok finish) :
    Collects sorter desk live (names.foldlM step live) finish := by
  have same : List.Forall₂ Eq names names := List.forall₂_same.mpr fun _ _ => rfl
  refine foldlM ?_ same asks shows folds
  rintro desk live state finish name _ asks rfl shows isStep
  exact each name asks shows isStep

/-- A stage is read, and then collecting goes through its names. What the stage keeps is kept
afterwards. -/
theorem stage {step : LiveCollected → Text → Run LiveCollected} {stage : Run (List Text)}
    {names : List Text} {keeps : Desk → Prop}
    (kept : ∀ {desk later : Desk}, keeps desk → desk.Grows later → keeps later)
    (reads : ∃ later, stage.on desk = (.ok names, later) ∧ desk.Asks sorter later ∧ keeps later)
    (folds : ∀ later, desk.Asks sorter later →
      Collects sorter later live (names.foldlM step live) finish) :
    ∃ later found, (stage >>= fun names => names.foldlM step live).on desk = (.ok found, later) ∧
      desk.Asks sorter later ∧ found.Shows later finish ∧
      (∀ type ∈ found.collected, type ∈ live.collected ∨ type.IsKept later) ∧ keeps later := by
  obtain ⟨between, read, asks, isKept⟩ := reads
  obtain ⟨later, found, ends, asks', shows, added⟩ := folds between asks
  exact ⟨later, found, by rw [Run.on_bind_ok read, ends], asks.trans asks', shows, added,
    kept isKept asks'.grows⟩

/-- The stages of a type are read, and collecting goes through what the type leads to. Afterwards
its parts are kept. -/
theorem stages {live : LiveType} {type : NamedType} {start : LiveCollected}
    {step : LiveCollected → Text → Run LiveCollected}
    {step' : Collected SortFault → Text → Except SortFault (Collected SortFault)}
    (each : ∀ {desk live state finish} name, base.Asks sorter desk → live.Shows desk state →
      step' state name = .ok finish → Collects sorter desk live (step live name) finish)
    (asks : base.Asks sorter desk) (showsType : live.Shows desk type)
    (isDue : live.IsDue desk sorter) (shows : start.Shows desk state)
    (folds : type.references.foldlM step' state = .ok finish) :
    ∃ later found, (live.stages.foldlM (fun state (stage : Run (List Text)) => do
        let names ← stage
        names.foldlM step state) start).on desk = (.ok found, later) ∧
      desk.Asks sorter later ∧ found.Shows later finish ∧
      (∀ type ∈ found.collected, type ∈ start.collected ∨ type.IsKept later) ∧
      live.IsKept later := by
  have through {later : Desk} {live : LiveCollected} {names : List Text}
      {state finish : Collected SortFault} (asks' : desk.Asks sorter later)
      (shows : live.Shows later state) (folds : names.foldlM step' state = .ok finish) :
      Collects sorter later live (names.foldlM step live) finish :=
    .foldlM_names each (asks.trans asks') shows folds
  obtain ⟨name, description, body⟩ := live
  obtain ⟨typeName, typeDescription, typeBody⟩ := type
  obtain ⟨-, -, showsBody⟩ := showsType
  dsimp only at showsBody
  cases showsBody with
  | scalar | enum =>
      cases folds
      exact ⟨desk, start, rfl, .refl sorter desk, shows, fun _ mem => .inl mem, trivial⟩
  | union holds =>
      have reads := Slot.on_read_of_isDue holds isDue
      obtain ⟨later, found, ends, asks', shows', added, isKept⟩ :=
        stage (fun isKept grows => Part.IsKept.grows isKept grows) reads
          fun later asks' => through asks' (shows.grows asks'.grows) folds
      refine ⟨later, found, ?_, asks', shows', added, isKept⟩
      rw [LiveType.stages, List.foldlM_cons, Run.on_bind_ok ends]
      rfl
  | inputObject oneOf holds =>
      obtain ⟨between, read, asksBetween, keptBetween⟩ := Slot.on_read_of_isDue holds isDue
      obtain ⟨later, found, ends, asks', shows', added, isKept⟩ :=
        stage (fun isKept grows => Part.IsKept.grows isKept grows)
          ⟨between, Run.on_map_ok read, asksBetween, keptBetween⟩
          fun later asks' => through asks' (shows.grows asks'.grows) folds
      refine ⟨later, found, ?_, asks', shows', added, isKept⟩
      rw [LiveType.stages, List.foldlM_cons, Run.on_bind_ok ends]
      rfl
  | object holdsInterfaces holdsFields | interface holdsInterfaces holdsFields =>
      obtain ⟨fieldsDue, interfacesDue⟩ := isDue
      simp only [NamedType.references, Body.references, List.foldlM_append] at folds
      obtain ⟨middle, first, second⟩ := bind_eq_ok_iff.mp folds
      obtain ⟨between, found, ends, asks', shows', added, interfacesKept⟩ :=
        stage (fun isKept grows => Part.IsKept.grows isKept grows)
          (Slot.on_read_of_isDue holdsInterfaces interfacesDue)
          fun later asks' => through asks' (shows.grows asks'.grows) first
      obtain ⟨after, read, asksAfter, keptAfter⟩ := Slot.on_read_of_isDue
        (holdsFields.grows asks'.grows) (fieldsDue.grows asks'.grows)
      obtain ⟨later, found', ends', asks'', shows'', added', fieldsKept⟩ :=
        stage (fun isKept grows => Part.IsKept.grows isKept grows)
          ⟨after, Run.on_map_ok read, asksAfter, keptAfter⟩
          fun later asks'' => through (asks'.trans asks'') (shows'.grows asks''.grows) second
      refine ⟨later, found', ?_, asks'.trans asks'', shows'', fun type mem => ?_,
        fieldsKept, interfacesKept.grows asks''.grows⟩
      · rw [LiveType.stages, List.foldlM_cons, Run.on_bind_ok ends, List.foldlM_cons,
          Run.on_bind_ok ends']
        rfl
      · rcases added' type mem with before | isKept
        · exact (added type before).imp_right fun isKept => isKept.grows asks''.grows
        · exact .inr isKept

end Collects

variable {find : Text → Option LiveType} {find' : Text → Option (TypeDraft SortFault)}

/-- A name is collected as it is elsewhere, if what it leads to is. -/
theorem collects_visitName {fuel : Nat} {live : LiveCollected}
    {state finish : Collected SortFault}
    (visits : ∀ {type : LiveType} {draft : TypeDraft SortFault}, StandsFor desk sorter type draft →
      Collected.visit fuel find' draft state = .ok finish →
      Collects sorter desk live (LiveCollected.visit fuel find type live) finish)
    (finds : ∀ name, Option.Rel (StandsFor desk sorter) (find name) (find' name)) (name : Text)
    (shows : live.Shows desk state)
    (visited : Collected.visitName fuel find' state name = .ok finish) :
    Collects sorter desk live (LiveCollected.visitName fuel find live name) finish := by
  unfold Collected.visitName Web.visitKey at visited
  dsimp only [Collected.web] at visited
  unfold LiveCollected.visitName
  rw [shows.known]
  split at visited
  · next known =>
    rw [if_pos known]
    cases visited
    exact .pure shows
  · next unknown =>
    rw [if_neg unknown]
    have found := finds name
    generalize find name = live? at found ⊢
    generalize find' name = draft? at found visited
    cases found with
    | none =>
        cases visited
        exact .pure shows
    | some stands => exact visits stands visited

/-- A type is collected as the type that it shows. -/
theorem collects_visit (fuel : Nat)
    (finds : ∀ name, Option.Rel (StandsFor base sorter) (find name) (find' name)) :
    ∀ {desk : Desk} {type : LiveType} {draft : TypeDraft SortFault} {live : LiveCollected}
      {state finish : Collected SortFault}, base.Asks sorter desk →
      StandsFor desk sorter type draft → live.Shows desk state →
      Collected.visit fuel find' draft state = .ok finish →
      Collects sorter desk live (LiveCollected.visit fuel find type live) finish := by
  induction fuel with
  | zero =>
      intro desk type draft live state finish _ _ shows visited
      cases visited
      exact .pure shows
  | succ fuel inductionHypothesis =>
      intro desk live draft start state finish asks ⟨type, isDraft, showsType, isDue⟩ shows visited
      rw [isDraft, Collected.visit_ofType] at visited
      have entered : LiveCollected.Shows desk ⟨live.name :: start.known, live :: start.collected⟩
          (state.enter type) :=
        ⟨congrArg₂ List.cons showsType.name shows.known,
          .cons ⟨type, rfl, showsType⟩ shows.collected⟩
      have each {desk : Desk} {live : LiveCollected} {state finish : Collected SortFault}
          (name : Text) (asks : base.Asks sorter desk) (shows : live.Shows desk state)
          (visited : Collected.visitName fuel find' state name = .ok finish) :
          Collects sorter desk live (LiveCollected.visitName fuel find live name) finish :=
        collects_visitName (fun stands visited => inductionHypothesis asks stands shows visited)
          (fun name => rel_grows (finds name) asks.grows) name shows visited
      obtain ⟨later, found, ends, asks', shows', added, isKept⟩ :=
        Collects.stages each asks showsType isDue entered visited
      refine ⟨later, found, ends, asks', shows', fun other mem => ?_⟩
      rcases added other mem with before | otherKept
      · rcases List.mem_cons.mp before with rfl | earlier
        · exact .inr isKept
        · exact .inl earlier
      · exact .inr otherKept

/-- A draft stands for another one: its types do. -/
structure LiveDraft.StandsFor (desk : Desk) (sorter : Nat) (live : LiveDraft)
    (draft : Draft SortFault) : Prop where
  description : live.description = draft.description
  query : live.query = draft.query
  mutation : live.mutation = draft.mutation
  subscription : live.subscription = draft.subscription
  directives : live.directives = draft.directives
  types : List.Forall₂ (Staged.StandsFor desk sorter) live.types draft.types
  isTrusted : live.isTrusted = draft.isTrusted

namespace LiveDraft

variable {live : LiveDraft} {draft : Draft SortFault}

/-- A name leads to a type that stands for what the name leads to elsewhere. -/
theorem StandsFor.find? (stands : live.StandsFor desk sorter draft) (name : Text) :
    Option.Rel (Staged.StandsFor desk sorter) (live.find? name) (draft.find? name) := by
  have sameName : ∀ live draft, Staged.StandsFor desk sorter live draft →
      live.name = draft.name := by
    rintro live _ ⟨type, rfl, shows, -⟩
    exact shows.name
  have listed : Option.Rel (Staged.StandsFor desk sorter)
      (live.types.find? fun type => type.name = name)
      (draft.types.find? fun type => type.name = name) := by
    have areTypes := stands.types
    generalize live.types = types at areTypes
    generalize draft.types = drafts at areTypes
    induction areTypes with
    | nil => exact .none
    | @cons type draft _ _ isType _ inductionHypothesis =>
        rw [List.find?_cons, List.find?_cons, sameName type draft isType]
        split
        · exact .some isType
        · exact inductionHypothesis
  unfold LiveDraft.find? Draft.find?
  generalize live.types.find? (fun type => type.name = name) = live? at listed ⊢
  generalize draft.types.find? (fun type => type.name = name) = draft? at listed ⊢
  cases listed with
  | some isType => exact .some isType
  | none =>
      dsimp only
      cases Standard.type? name with
      | none => exact .none
      | some type => exact .some (LiveType.ofType_settledAs desk type).standsFor

/-- The types of a draft are collected as those that they stand for. -/
theorem StandsFor.collect (stands : live.StandsFor desk sorter draft)
    {drafts : List (TypeDraft SortFault)} (collects : draft.collect = .ok drafts) :
    ∃ later types, live.collect.on desk = (.ok types, later) ∧ desk.Asks sorter later ∧
      List.Forall₂ (fun live draft => ∃ type, draft = .ofType type ∧ live.Shows later type)
        types drafts ∧ ∀ type ∈ types, type.IsKept later := by
  have names : live.types.map LiveType.name = draft.types.map TypeDraft.name := by
    refine (map_eq_map_of_forall₂ stands.types ?_).symm
    rintro live _ ⟨type, rfl, shows, -⟩
    exact shows.name.symm
  have sameReferences : live.references = draft.references := by
    unfold LiveDraft.references Draft.references
    rw [stands.query, stands.mutation, stands.subscription, stands.directives]
  unfold Draft.collect Web.collect at collects
  simp only [bind_eq_ok_iff, pure_eq_ok_iff] at collects
  obtain ⟨listed, areListed, all, areAll, rfl⟩ := collects
  have start : LiveCollected.Shows desk ⟨live.types.map LiveType.name, []⟩
      ⟨draft.types.map TypeDraft.name, []⟩ := ⟨names, .nil⟩
  let fuel := draft.types.length + Standard.types.length + 1
  have eachType {desk' : Desk} {state : LiveCollected} {state' finish : Collected SortFault}
      (type : LiveType) (other : TypeDraft SortFault) (asks : desk.Asks sorter desk')
      (isType : Staged.StandsFor desk sorter type other) (shows : state.Shows desk' state')
      (visited : Collected.visit fuel draft.find? other state' = .ok finish) :
      Collects sorter desk' state (LiveCollected.visit fuel live.find? type state) finish :=
    collects_visit fuel stands.find? asks (isType.grows asks.grows) shows visited
  have eachName {desk' : Desk} {state : LiveCollected} {state' finish : Collected SortFault}
      (name : Text) (asks : desk.Asks sorter desk') (shows : state.Shows desk' state')
      (visited : Collected.visitName fuel draft.find? state' name = .ok finish) :
      Collects sorter desk' state (LiveCollected.visitName fuel live.find? state name) finish :=
    collects_visitName
      (fun stands' visited => collects_visit fuel stands.find? asks stands' shows visited)
      (fun name => rel_grows (stands.find? name) asks.grows) name shows visited
  obtain ⟨later, found, ends, asks, shows, kept⟩ :=
    (Collects.foldlM eachType stands.types (.refl sorter desk) start areListed).bind
      fun later found asks shows => Collects.foldlM_names eachName asks shows areAll
  refine ⟨later, found.collected.reverse, ?_, asks, List.rel_reverse shows.collected,
    fun type mem => ?_⟩
  · unfold LiveDraft.collect
    rw [sameReferences, stands.types.length_eq]
    rw [← bind_assoc, Run.on_bind_ok ends]
    rfl
  · rcases kept type (List.mem_reverse.mp mem) with impossible | isKept
    · cases impossible
    · exact isKept

/-- A draft of types that stand for known ones becomes a schema that shows what becomes of these,
and in which all parts are kept. -/
theorem StandsFor.assemble (stands : live.StandsFor desk sorter draft) {listed : List NamedType}
    (known : draft.types = listed.map .ofType) :
    ∃ later copy types, live.assemble.on desk = (.ok copy, later) ∧ desk.Asks sorter later ∧
      draft.assemble = .ok (draft.withTypes types) ∧ Draft.Recollects listed types ∧
      copy.Shows later (draft.withTypes types) := by
  obtain ⟨types, collects, recollects⟩ := draft.collect_recollects known
  obtain ⟨later, found, ends, asks, shows, kept⟩ := stands.collect collects
  have settled : List.Forall₂ (LiveType.SettledAs later) found types := by
    rw [List.forall₂_map_right_iff] at shows
    refine forall₂_imp_of_mem shows kept ?_
    rintro live type isKept ⟨other, same, showsOther⟩
    obtain rfl := TypeDraft.ofType_injective same
    exact ⟨showsOther, isKept⟩
  have copyShows : (live.withTypes found).Shows later (draft.withTypes types) := {
    description := stands.description
    query := stands.query
    mutation := stands.mutation
    subscription := stands.subscription
    directives := stands.directives
    types := settled
    index := List.forall₂_map_left_iff.mpr (List.forall₂_map_right_iff.mpr
      (settled.imp fun _ _ isSettled => .defined isSettled))
    validation := by rw [LiveDraft.withTypes, stands.isTrusted]; rfl }
  exact ⟨later, _, types, Run.on_map_ok ends, asks, Draft.assemble_of_collect collects, recollects,
    copyShows⟩

end LiveDraft

end SchemaOrder.Staged
