import Mathlib.Data.List.Nodup
import SchemaOrder.Proofs.Collections
import SchemaOrder.Proofs.Outcome
import SchemaOrder.Proofs.Schema.Closure
import SchemaOrder.Proofs.Schema.Webs

/-!
# Assembling drafts of known types

Assembling a draft collects again every type that can be reached from it. Where the parts of
all types are known already, this never fails, and `collect_recollects` says what comes out:
the listed types in their order, and between them standard types that were not listed, each
once. Where the listed types lead only to each other, `collect_of_closed` says that nothing
stands between them, and that only what describes the schema itself may follow.
-/

namespace SchemaOrder.Schema

open Outcome

variable {ε : Type}

/-- A standard type that is found is one of the standard types, and has the name. -/
theorem Standard.type?_eq_some {name : Text} {type : NamedType}
    (found : Standard.type? name = some type) : type ∈ Standard.types ∧ type.name = name := by
  unfold Standard.type? at found
  exact ⟨List.mem_of_find?_eq_some found, by simpa using List.find?_some found⟩

/-- A standard name is one that leads to a standard type. -/
theorem isSome_standardType? (name : Text) :
    (Standard.type? name).isSome = isStandardType name := by
  have sameNames : (Standard.types.map NamedType.name).Perm
      (standardScalars ++ introspectionTypes) := by decide
  have isStandard : isStandardType name = true ↔ name ∈ standardScalars ++ introspectionTypes := by
    simp [isStandardType, isStandardScalar, isIntrospectionType]
  rw [Bool.eq_iff_iff, isStandard, ← sameNames.mem_iff]
  exact Named.isSome_find?_iff

/-- A name that is no standard one leads to no standard type. -/
theorem isStandardType_eq_false_iff {name : Text} :
    isStandardType name = false ↔ Standard.type? name = none := by
  rw [← isSome_standardType?, Option.isSome_eq_false_iff, Option.isNone_iff_eq_none]

namespace TypeDraft

/-- The draft of a known type has its name. -/
@[simp] theorem name_ofType (type : NamedType) : (ofType type : TypeDraft ε).name = type.name :=
  rfl

/-- A known type resolves to itself. -/
theorem resolve_ofType (type : NamedType) : (ofType type : TypeDraft ε).resolve = .ok type := by
  obtain ⟨name, description, body⟩ := type
  cases body <;> rfl

/-- Different types have different drafts. -/
theorem ofType_injective : Function.Injective (ofType : NamedType → TypeDraft ε) := by
  intro left right same
  have resolved := congrArg resolve same
  rw [resolve_ofType, resolve_ofType] at resolved
  exact Except.ok.inj resolved

/-- Going through the stages of a known type is going through the names it leads to. -/
theorem foldlM_stages_ofType {σ : Type} (step : σ → Text → Except ε σ) (type : NamedType)
    (start : σ) :
    ((ofType type : TypeDraft ε).stages.foldlM (fun state stage => do
      let names ← stage
      names.foldlM step state) start) = type.references.foldlM step start := by
  obtain ⟨name, description, body⟩ := type
  cases body with
  | scalar | enum => rfl
  | object interfaces fields | interface interfaces fields =>
      simp only [stages, ofType, NamedType.references, Body.references, List.foldlM_append]
      change (interfaces.foldlM step start >>= fun state =>
        (fieldReferences fields).foldlM step state >>= pure) = _
      simp
  | union members =>
      change (members.foldlM step start >>= pure) = _
      simp [NamedType.references, Body.references]
  | inputObject fields oneOf =>
      change ((fields.map fun field => field.type.base).foldlM step start >>= pure) = _
      simp [NamedType.references, Body.references]

end TypeDraft

namespace Collected

variable {find : Text → Option (TypeDraft ε)} {start middle finish : Collected ε}

/-- The state after a known type is collected, before what it leads to is. -/
def enter (state : Collected ε) (type : NamedType) : Collected ε :=
  ⟨type.name :: state.known, .ofType type :: state.collected⟩

/-- A known type is collected by collecting what it leads to behind it. -/
theorem visit_ofType (fuel : Nat) (find : Text → Option (TypeDraft ε)) (type : NamedType)
    (state : Collected ε) :
    visit (fuel + 1) find (.ofType type) state =
      type.references.foldlM (visitName fuel find) (state.enter type) := by
  rw [← TypeDraft.foldlM_stages_ofType]
  rfl

/-- A name that is known already changes nothing. -/
theorem visitName_of_known (fuel : Nat) (find : Text → Option (TypeDraft ε)) {name : Text}
    (known : name ∈ start.known) : visitName fuel find start name = .ok start := by
  simp [visitName, Web.visitKey, known]

/-- Names that are known already change nothing. -/
theorem foldlM_visitName_of_known (fuel : Nat) (find : Text → Option (TypeDraft ε))
    {names : List Text} (known : ∀ name ∈ names, name ∈ start.known) :
    names.foldlM (visitName fuel find) start = .ok start :=
  Web.foldlM_visitKey_of_known fuel known

/-- Every name that is not known yet leads to the standard type of that name, if to any. -/
def FindsStandard (find : Text → Option (TypeDraft ε)) (state : Collected ε) : Prop :=
  ∀ name, name ∉ state.known → find name = (Standard.type? name).map .ofType

/-- A standard type that is not known yet is collected by entering it, and then what it leads
to. -/
theorem visitName_of_standard (fuel : Nat) (finds : FindsStandard find start) {name : Text}
    {type : NamedType} (unknown : name ∉ start.known)
    (isStandard : Standard.type? name = some type) :
    visitName (fuel + 1) find start name =
      type.references.foldlM (visitName fuel find) (start.enter type) := by
  have isFound := finds name unknown
  simp only [visitName, Web.visitKey, unknown, isFound, isStandard, List.contains_eq_mem,
    decide_false, Bool.false_eq_true, if_false, Option.map_some]
  exact visit_ofType fuel find type start

/-- What collecting adds to a state in which every listed type is known: standard types
that were not known before, each once. -/
structure Extends (start finish : Collected ε) (added : List NamedType) : Prop where
  collected : finish.collected = (added.map .ofType).reverse ++ start.collected
  known : ∀ name, name ∈ finish.known ↔ name ∈ start.known ∨ name ∈ added.map NamedType.name
  fresh : ∀ type ∈ added, type.name ∉ start.known
  unique : (added.map NamedType.name).Nodup
  standard : ∀ type ∈ added, type ∈ Standard.types

/-- Nothing is added where nothing is done. -/
theorem Extends.refl (state : Collected ε) : Extends state state [] where
  collected := rfl
  known := by simp
  fresh := by simp
  unique := by simp
  standard := by simp

/-- What two steps add, one after the other. -/
theorem Extends.trans {first second : List NamedType} (earlier : Extends start middle first)
    (later : Extends middle finish second) : Extends start finish (first ++ second) where
  collected := by simp [later.collected, earlier.collected]
  known := by
    intro name
    rw [later.known, earlier.known, List.map_append, List.mem_append, or_assoc]
  fresh := by
    intro type mem
    rcases List.mem_append.mp mem with inFirst | inSecond
    · exact earlier.fresh type inFirst
    · exact fun known => later.fresh type inSecond ((earlier.known _).mpr (.inl known))
  unique := by
    rw [List.map_append]
    refine earlier.unique.append later.unique ?_
    intro name inFirst inSecond
    obtain ⟨type, mem, rfl⟩ := List.mem_map.mp inSecond
    exact later.fresh type mem ((earlier.known _).mpr (.inr inFirst))
  standard := by
    intro type mem
    rcases List.mem_append.mp mem with inFirst | inSecond
    · exact earlier.standard type inFirst
    · exact later.standard type inSecond

/-- Entering a standard type that is not known adds it. -/
theorem Extends.enter {type : NamedType} (standard : type ∈ Standard.types)
    (fresh : type.name ∉ start.known) : Extends start (start.enter type) [type] where
  collected := rfl
  known := by
    intro name
    simp [Collected.enter, or_comm]
  fresh := by simpa using fresh
  unique := by simp
  standard := by simpa using standard

/-- Names that are not known later were not known before. -/
theorem Extends.findsStandard {added : List NamedType} (extension : Extends start finish added)
    (finds : FindsStandard find start) : FindsStandard find finish :=
  fun name unknown => finds name fun known => unknown ((extension.known name).mpr (.inl known))

/-- If visiting one name adds the same types to states that know the same names, so does
visiting several. -/
theorem foldlM_visitName_adds_alike {fuel : Nat} {find' : Text → Option (TypeDraft ε)}
    (each : ∀ (start other : Collected ε) (name : Text),
      (∀ known, known ∈ start.known ↔ known ∈ other.known) →
      FindsStandard find start → FindsStandard find' other →
      ∃ finish finish' added, visitName fuel find start name = .ok finish ∧
        visitName fuel find' other name = .ok finish' ∧
        Extends start finish added ∧ Extends other finish' added)
    (names : List Text) {start other : Collected ε}
    (sameKnown : ∀ name, name ∈ start.known ↔ name ∈ other.known)
    (finds : FindsStandard find start) (finds' : FindsStandard find' other) :
    ∃ finish finish' added, names.foldlM (visitName fuel find) start = .ok finish ∧
      names.foldlM (visitName fuel find') other = .ok finish' ∧
      Extends start finish added ∧ Extends other finish' added := by
  induction names generalizing start other with
  | nil => exact ⟨start, other, [], rfl, rfl, .refl start, .refl other⟩
  | cons head tail inductionHypothesis =>
      obtain ⟨middle, middle', first, visited, visited', earlier, earlier'⟩ :=
        each start other head sameKnown finds finds'
      have sameMiddle : ∀ name, name ∈ middle.known ↔ name ∈ middle'.known := by
        intro name
        rw [earlier.known, earlier'.known, sameKnown]
      obtain ⟨finish, finish', second, rest, rest', later, later'⟩ := inductionHypothesis
        sameMiddle (earlier.findsStandard finds) (earlier'.findsStandard finds')
      refine ⟨finish, finish', first ++ second, ?_, ?_, earlier.trans later,
        earlier'.trans later'⟩
      · rw [List.foldlM_cons, visited]
        exact rest
      · rw [List.foldlM_cons, visited']
        exact rest'

/-- What visiting a name adds depends on the names that are known, and on nothing else of the
state it starts in. -/
theorem visitName_adds_alike (fuel : Nat) {find' : Text → Option (TypeDraft ε)}
    {start other : Collected ε} (name : Text)
    (sameKnown : ∀ name, name ∈ start.known ↔ name ∈ other.known)
    (finds : FindsStandard find start) (finds' : FindsStandard find' other) :
    ∃ finish finish' added, visitName fuel find start name = .ok finish ∧
      visitName fuel find' other name = .ok finish' ∧
      Extends start finish added ∧ Extends other finish' added := by
  induction fuel generalizing start other name with
  | zero =>
      refine ⟨start, other, [], ?_, ?_, .refl start, .refl other⟩ <;>
      · unfold visitName Web.visitKey
        split
        · rfl
        · split <;> rfl
  | succ fuel inductionHypothesis =>
      by_cases known : name ∈ start.known
      · exact ⟨start, other, [], visitName_of_known _ _ known,
          visitName_of_known _ _ ((sameKnown name).mp known), .refl start, .refl other⟩
      · have known' : name ∉ other.known := fun mem => known ((sameKnown name).mpr mem)
        have isFound := finds name known
        have isFound' := finds' name known'
        cases isStandard : Standard.type? name with
        | none =>
            refine ⟨start, other, [], ?_, ?_, .refl start, .refl other⟩
            · simp [visitName, Web.visitKey, known, isFound, isStandard]
            · simp [visitName, Web.visitKey, known', isFound', isStandard]
        | some type =>
            obtain ⟨standard, sameName⟩ := Standard.type?_eq_some isStandard
            have entered : Extends start (start.enter type) [type] :=
              .enter standard (sameName ▸ known)
            have entered' : Extends other (other.enter type) [type] :=
              .enter standard (sameName ▸ known')
            have sameEntered : ∀ name, name ∈ (start.enter type).known ↔
                name ∈ (other.enter type).known := by
              intro name
              rw [entered.known, entered'.known, sameKnown]
            obtain ⟨finish, finish', added, rest, rest', later, later'⟩ :=
              foldlM_visitName_adds_alike (fun _ _ name => inductionHypothesis name)
                type.references sameEntered (entered.findsStandard finds)
                (entered'.findsStandard finds')
            refine ⟨finish, finish', [type] ++ added, ?_, ?_, entered.trans later,
              entered'.trans later'⟩
            · rw [visitName_of_standard fuel finds known isStandard, rest]
            · rw [visitName_of_standard fuel finds' known' isStandard, rest']

/-- Visiting a name never fails, and adds nothing but standard types. -/
theorem visitName_extends (fuel : Nat) {start : Collected ε} (name : Text)
    (finds : FindsStandard find start) :
    ∃ finish added, visitName fuel find start name = .ok finish ∧
      Extends start finish added := by
  obtain ⟨finish, -, added, visited, -, extension, -⟩ :=
    visitName_adds_alike fuel name (fun _ => Iff.rfl) finds finds
  exact ⟨finish, added, visited, extension⟩

/-- Visiting names never fails, and adds nothing but standard types. -/
theorem foldlM_visitName_extends (fuel : Nat) (names : List Text) {start : Collected ε}
    (finds : FindsStandard find start) :
    ∃ finish added, names.foldlM (visitName fuel find) start = .ok finish ∧
      Extends start finish added := by
  obtain ⟨finish, -, added, visited, -, extension, -⟩ :=
    foldlM_visitName_adds_alike (fun _ _ name => visitName_adds_alike fuel name) names
      (fun _ => Iff.rfl) finds finds
  exact ⟨finish, added, visited, extension⟩

/-- A standard name is known after it was visited, unless there is no fuel at all. -/
theorem mem_known_of_visitName {fuel : Nat} {name : Text} {type : NamedType}
    (finds : FindsStandard find start) (isStandard : Standard.type? name = some type)
    (visited : visitName (fuel + 1) find start name = .ok finish) : name ∈ finish.known := by
  by_cases known : name ∈ start.known
  · rw [visitName_of_known _ _ known] at visited
    cases visited
    exact known
  · obtain ⟨standard, sameName⟩ := Standard.type?_eq_some isStandard
    have entered : Extends start (start.enter type) [type] :=
      .enter standard (sameName ▸ known)
    obtain ⟨finish', added, rest, later⟩ :=
      foldlM_visitName_extends fuel type.references (entered.findsStandard finds)
    rw [visitName_of_standard fuel finds known isStandard, rest] at visited
    cases visited
    exact (later.known name).mpr (.inl (by simp [enter, sameName]))

/-- How far collecting has come: of the listed types the first ones are collected, in their
order, and between them stand standard types that are not listed, each once. -/
structure Progress (listed : List Text) (done : List NamedType) (state : Collected ε)
    (types : List NamedType) : Prop where
  collected : state.collected = (types.map .ofType).reverse
  inOrder : types.filter (fun type => type.name ∈ listed) = done
  known : ∀ name, name ∈ state.known ↔ name ∈ listed ∨ name ∈ types.map NamedType.name
  unique : ((types.filter fun type => !decide (type.name ∈ listed)).map NamedType.name).Nodup
  standard : ∀ type ∈ types, type.name ∉ listed → type ∈ Standard.types

namespace Progress

variable {listed : List Text} {done types : List NamedType} {state : Collected ε}

/-- Before the first type. -/
theorem initial (listed : List Text) : Progress listed [] (⟨listed, []⟩ : Collected ε) [] where
  collected := rfl
  inOrder := rfl
  known := by simp
  unique := by simp
  standard := by simp

/-- The next listed type is entered. -/
theorem enter (progress : Progress listed done state types) {type : NamedType}
    (isListed : type.name ∈ listed) :
    Progress listed (done ++ [type]) (state.enter type) (types ++ [type]) where
  collected := by simp [Collected.enter, progress.collected]
  inOrder := by simp [List.filter_append, progress.inOrder, isListed]
  known := by
    intro name
    simp only [Collected.enter, List.mem_cons, progress.known, List.map_append, List.mem_append,
      List.map_cons, List.map_nil, List.not_mem_nil, or_false]
    constructor
    · rintro (rfl | known | known)
      · exact .inl isListed
      · exact .inl known
      · exact .inr (.inl known)
    · rintro (known | known | rfl)
      · exact .inr (.inl known)
      · exact .inr (.inr known)
      · exact .inl rfl
  unique := by simpa [List.filter_append, isListed] using progress.unique
  standard := by
    intro other mem unlisted
    rcases List.mem_append.mp mem with earlier | last
    · exact progress.standard other earlier unlisted
    · rw [List.mem_singleton.mp last] at unlisted
      exact absurd isListed unlisted

/-- Standard types that were not known are added. -/
theorem extend (progress : Progress listed done state types) {added : List NamedType}
    (extension : Extends state finish added) : Progress listed done finish (types ++ added) where
  collected := by simp [extension.collected, progress.collected]
  inOrder := by
    have none : added.filter (fun type => type.name ∈ listed) = [] := by
      rw [List.filter_eq_nil_iff]
      intro type mem isListed
      exact extension.fresh type mem
        ((progress.known _).mpr (.inl (of_decide_eq_true isListed)))
    rw [List.filter_append, none, List.append_nil, progress.inOrder]
  known := by
    intro name
    rw [extension.known, progress.known, List.map_append, List.mem_append, or_assoc]
  unique := by
    rw [List.filter_append, List.map_append]
    refine progress.unique.append (extension.unique.sublist (List.filter_sublist.map _)) ?_
    intro name earlier later
    obtain ⟨type, mem, rfl⟩ := List.mem_map.mp later
    have inTypes := (List.filter_sublist.map NamedType.name).subset earlier
    exact extension.fresh type (List.mem_filter.mp mem).1 ((progress.known _).mpr (.inr inTypes))
  standard := by
    intro type mem unlisted
    rcases List.mem_append.mp mem with earlier | later
    · exact progress.standard type earlier unlisted
    · exact extension.standard type later

/-- A name that is not known is not listed, so that it leads to a standard type. -/
theorem findsStandard (progress : Progress listed done state types)
    (finds : ∀ name, name ∉ listed → find name = (Standard.type? name).map .ofType) :
    FindsStandard find state :=
  fun name unknown => finds name fun isListed => unknown ((progress.known name).mpr (.inl isListed))

/-- Collecting the listed types one after the other never fails, and goes on as it began. -/
theorem foldlM_visit (fuel : Nat) (progress : Progress listed done state types)
    (finds : ∀ name, name ∉ listed → find name = (Standard.type? name).map .ofType)
    {next : List NamedType} (areListed : ∀ type ∈ next, type.name ∈ listed) :
    ∃ finish types', (next.map TypeDraft.ofType).foldlM
        (fun state type => visit (fuel + 1) find type state) state = .ok finish ∧
      Progress listed (done ++ next) finish types' := by
  induction next generalizing done state types with
  | nil => exact ⟨state, types, rfl, by simpa using progress⟩
  | cons head tail inductionHypothesis =>
      have entered := progress.enter (areListed head (by simp))
      obtain ⟨middle, added, visited, extension⟩ :=
        foldlM_visitName_extends fuel head.references (entered.findsStandard finds)
      obtain ⟨finish, types', rest, further⟩ :=
        inductionHypothesis (entered.extend extension)
          fun type mem => areListed type (by simp [mem])
      refine ⟨finish, types', ?_, by simpa using further⟩
      rw [List.map_cons, List.foldlM_cons, visit_ofType, visited]
      exact rest

/-- Where the listed types lead to listed types only, nothing comes between them. -/
theorem foldlM_visit_of_closed (fuel : Nat) (find : Text → Option (TypeDraft ε))
    (progress : Progress listed done state types) {next : List NamedType}
    (areListed : ∀ type ∈ next, type.name ∈ listed)
    (closed : ∀ type ∈ next, ∀ name ∈ type.references, name ∈ listed) :
    ∃ finish, (next.map TypeDraft.ofType).foldlM
        (fun state type => visit (fuel + 1) find type state) state = .ok finish ∧
      Progress listed (done ++ next) finish (types ++ next) := by
  induction next generalizing done state types with
  | nil => exact ⟨state, rfl, by simpa using progress⟩
  | cons head tail inductionHypothesis =>
      have entered := progress.enter (areListed head (by simp))
      have nothing : head.references.foldlM (visitName fuel find) (state.enter head) =
          .ok (state.enter head) :=
        foldlM_visitName_of_known fuel find fun name mem =>
          (entered.known name).mpr (.inl (closed head (by simp) name mem))
      obtain ⟨finish, rest, further⟩ := inductionHypothesis entered
        (fun type mem => areListed type (by simp [mem]))
        (fun type mem => closed type (by simp [mem]))
      refine ⟨finish, ?_, by simpa using further⟩
      rw [List.map_cons, List.foldlM_cons, visit_ofType, nothing]
      exact rest

end Progress

end Collected

namespace Draft

open Collected

variable {draft : Draft ε} {listed types : List NamedType}

/-- The schema that a draft becomes when these types are collected. -/
def withTypes (draft : Draft ε) (types : List NamedType) : Schema where
  description := draft.description
  query := draft.query
  mutation := draft.mutation
  subscription := draft.subscription
  directives := draft.directives
  types := types
  index := types.map .defined
  validation := if draft.isTrusted then some [] else none

/-- Once known types are collected, a draft becomes a schema. -/
theorem assemble_of_collect (collected : draft.collect = .ok (types.map .ofType)) :
    draft.assemble = .ok (draft.withTypes types) := by
  have each : ∀ type ∈ types, ((TypeDraft.resolve : TypeDraft ε → _) ∘ TypeDraft.ofType) type =
      .ok (id type) :=
    fun type _ => TypeDraft.resolve_ofType type
  have resolved : (types.map TypeDraft.ofType).mapM (TypeDraft.resolve : TypeDraft ε → _) =
      .ok types := by
    rw [List.mapM_map, mapM_eq_ok each, List.map_id]
  unfold assemble
  simp only [bind_eq_ok_iff, pure_eq_ok_iff]
  exact ⟨_, collected, types, resolved, rfl⟩

/-- A name that no listed type has leads to a standard type, if to any. -/
theorem find?_of_unlisted (known : draft.types = listed.map .ofType) {name : Text}
    (unlisted : name ∉ listed.map NamedType.name) :
    draft.find? name = (Standard.type? name).map .ofType := by
  have absent : draft.types.find? (fun type => type.name = name) = none := by
    rw [known, List.find?_eq_none]
    intro type mem
    obtain ⟨other, otherMem, rfl⟩ := List.mem_map.mp mem
    intro sameName
    exact unlisted (of_decide_eq_true sameName ▸ List.mem_map_of_mem otherMem)
  simp [find?, absent]

/-- What collecting makes of listed types: it keeps them and their order, and adds standard
types that were not listed, among them the type that describes schemas. -/
structure Recollects (listed types : List NamedType) : Prop where
  kept : types.filter (fun type => type.name ∈ listed.map NamedType.name) = listed
  standard : ∀ type ∈ types, type.name ∉ listed.map NamedType.name → type ∈ Standard.types
  unique : (listed.map NamedType.name).Nodup → (types.map NamedType.name).Nodup
  describes : Text.ofString "__Schema" ∈ types.map NamedType.name

/-- Progress that has come past all listed types, and past the type that describes schemas. -/
theorem recollects_of_progress {state : Collected ε}
    (progress : Progress (listed.map NamedType.name) listed state types)
    (described : Text.ofString "__Schema" ∈ state.known) : Recollects listed types where
  kept := progress.inOrder
  standard := progress.standard
  unique := by
    intro uniqueListed
    have parts := (List.filter_append_perm
      (fun type => decide (type.name ∈ listed.map NamedType.name)) types).map NamedType.name
    rw [← parts.nodup_iff, List.map_append, progress.inOrder]
    refine uniqueListed.append progress.unique ?_
    intro name inListed inOthers
    obtain ⟨type, mem, rfl⟩ := List.mem_map.mp inOthers
    simpa only [inListed, decide_true, Bool.not_true, Bool.false_eq_true] using
      (List.mem_filter.mp mem).2
  describes := by
    rcases (progress.known _).mp described with isListed | isCollected
    · rw [← progress.inOrder] at isListed
      exact (List.filter_sublist.map NamedType.name).subset isListed
    · exact isCollected

/-- The name of the type that describes schemas leads to a standard type. -/
theorem type?_schema : Standard.type? (Text.ofString "__Schema") =
    some Standard.schemaIntrospection :=
  rfl

/-- The names that the operations and the directives of a draft lead to. -/
def ownReferences (draft : Draft ε) : List Text :=
  [draft.query, draft.mutation, draft.subscription].filterMap id ++
    draft.directives.flatMap Directive.references

/-- A bound on how deep collecting can go below a listed type. -/
def depth (draft : Draft ε) : Nat :=
  draft.types.length + Standard.types.length

/-- A draft finds nothing but its own types and the standard ones. -/
theorem isSpannedBy (draft : Draft ε) : (web draft.find?).IsSpannedBy
    (draft.types.map TypeDraft.name ++ Standard.types.map NamedType.name) := by
  intro name type found
  change draft.find? name = some type at found
  unfold find? at found
  split at found
  · next listed isListed =>
    obtain rfl := Option.some.inj found
    have sameName : listed.name = name := by simpa using List.find?_some isListed
    have mem := List.mem_of_find?_eq_some isListed
    exact ⟨sameName, List.mem_append_left _ (sameName ▸ List.mem_map_of_mem mem)⟩
  · obtain ⟨standard, isStandard, rfl⟩ := Option.map_eq_some_iff.mp found
    obtain ⟨mem, rfl⟩ := Standard.type?_eq_some isStandard
    exact ⟨rfl, List.mem_append_right _ (List.mem_map_of_mem mem)⟩

/-- A larger bound on the depth makes no difference to what is collected. -/
theorem collect_of_enough (draft : Draft ε) {fuel : Nat} (enough : draft.depth ≤ fuel) :
    (web draft.find?).collect (fuel + 1) draft.types draft.references = draft.collect :=
  Web.collect_of_enough draft.isSpannedBy (by simpa [depth] using enough) (by simp) _ _

/-- Collecting goes through the listed types, then through what the draft itself leads to, and
at last to the type that describes schemas. -/
theorem collect_of_stages (known : draft.types = listed.map .ofType)
    {first second third : Collected ε}
    (visited : (listed.map TypeDraft.ofType).foldlM
      (fun state type => visit (draft.depth + 1) draft.find? type state)
      ⟨listed.map NamedType.name, []⟩ = .ok first)
    (visitedOwn : draft.ownReferences.foldlM (visitName (draft.depth + 1) draft.find?) first =
      .ok second)
    (described : visitName (draft.depth + 1) draft.find? second (Text.ofString "__Schema") =
      .ok third) : draft.collect = .ok third.collected.reverse := by
  have sameNames : draft.types.map TypeDraft.name = listed.map NamedType.name := by
    rw [known, List.map_map]
    rfl
  have split : draft.references = draft.ownReferences ++ [Text.ofString "__Schema"] := rfl
  rw [← known, ← sameNames] at visited
  have visitedAll : draft.references.foldlM (visitName (draft.depth + 1) draft.find?) first =
      .ok third := by
    rw [split, List.foldlM_append, bind_eq_ok_iff]
    refine ⟨second, visitedOwn, ?_⟩
    rw [List.foldlM_cons, bind_eq_ok_iff]
    exact ⟨third, described, rfl⟩
  unfold depth at visited visitedAll
  simp only [collect, Web.collect, bind_eq_ok_iff, pure_eq_ok_iff]
  exact ⟨first, visited, third, visitedAll, rfl⟩

/-- The stages of collecting a draft of known types never fail, and go on as collecting began. -/
theorem stages_progress (draft : Draft ε) (known : draft.types = listed.map .ofType) :
    ∃ first second third types,
      (listed.map TypeDraft.ofType).foldlM
        (fun state type => visit (draft.depth + 1) draft.find? type state)
        ⟨listed.map NamedType.name, []⟩ = .ok first ∧
      draft.ownReferences.foldlM (visitName (draft.depth + 1) draft.find?) first = .ok second ∧
      visitName (draft.depth + 1) draft.find? second (Text.ofString "__Schema") = .ok third ∧
      Progress (listed.map NamedType.name) listed third types ∧
      Text.ofString "__Schema" ∈ third.known := by
  have finds : ∀ name, name ∉ listed.map NamedType.name →
      draft.find? name = (Standard.type? name).map .ofType :=
    fun _ => find?_of_unlisted known
  obtain ⟨first, types, visited, progress⟩ :=
    (Progress.initial (ε := ε) (listed.map NamedType.name)).foldlM_visit draft.depth
      finds fun type mem => List.mem_map_of_mem mem
  obtain ⟨second, own, visitedOwn, extension⟩ :=
    foldlM_visitName_extends (draft.depth + 1) draft.ownReferences (progress.findsStandard finds)
  have findsLast := (progress.extend extension).findsStandard finds
  obtain ⟨third, last, visitedLast, extensionLast⟩ :=
    visitName_extends (draft.depth + 1) (Text.ofString "__Schema") findsLast
  exact ⟨first, second, third, _, visited, visitedOwn, visitedLast,
    (progress.extend extension).extend extensionLast,
    mem_known_of_visitName findsLast type?_schema visitedLast⟩

/-- Collecting a draft of known types never fails, and keeps the listed types in order. -/
theorem collect_recollects (draft : Draft ε) (known : draft.types = listed.map .ofType) :
    ∃ types, draft.collect = .ok (types.map .ofType) ∧ Recollects listed types := by
  obtain ⟨first, second, third, types, visited, visitedOwn, visitedLast, progress, described⟩ :=
    draft.stages_progress known
  refine ⟨types, ?_, recollects_of_progress progress described⟩
  rw [collect_of_stages known visited visitedOwn visitedLast, progress.collected,
    List.reverse_reverse]

/-- Where the listed types and the draft itself lead to listed types only, collecting comes past
all of them without adding any, and is left with the type that describes schemas. -/
theorem collect_up_to_description (draft : Draft ε) (known : draft.types = listed.map .ofType)
    (closed : ∀ type ∈ listed, ∀ name ∈ type.references, name ∈ listed.map NamedType.name)
    (own : ∀ name ∈ draft.ownReferences, name ∈ listed.map NamedType.name) :
    ∃ state, Progress (listed.map NamedType.name) listed state listed ∧
      ∀ finish, visitName (draft.depth + 1) draft.find? state (Text.ofString "__Schema") =
        .ok finish → draft.collect = .ok finish.collected.reverse := by
  obtain ⟨first, visited, progress⟩ :=
    (Progress.initial (ε := ε) (listed.map NamedType.name)).foldlM_visit_of_closed
      draft.depth draft.find? (fun type mem => List.mem_map_of_mem mem) closed
  rw [List.nil_append] at progress
  have visitedOwn := foldlM_visitName_of_known (draft.depth + 1) draft.find?
    fun name mem => (progress.known name).mpr (.inl (own name mem))
  exact ⟨first, progress, fun finish described =>
    collect_of_stages known visited visitedOwn described⟩

/-- Where the listed types and the draft itself lead to listed types only, collecting adds
nothing but what describes schemas, behind all listed types, and only if it is not listed. -/
theorem collect_of_closed (draft : Draft ε) (known : draft.types = listed.map .ofType)
    (closed : ∀ type ∈ listed, ∀ name ∈ type.references, name ∈ listed.map NamedType.name)
    (own : ∀ name ∈ draft.ownReferences, name ∈ listed.map NamedType.name) :
    ∃ added, draft.collect = .ok ((listed ++ added).map .ofType) ∧
      Recollects listed (listed ++ added) ∧
      (Text.ofString "__Schema" ∈ listed.map NamedType.name → added = []) := by
  obtain ⟨first, progress, collects⟩ := draft.collect_up_to_description known closed own
  have finds := progress.findsStandard fun _ => find?_of_unlisted known
  obtain ⟨second, added, visited, extension⟩ :=
    visitName_extends (draft.depth + 1) (Text.ofString "__Schema") finds
  have finished := progress.extend extension
  refine ⟨added, ?_, recollects_of_progress finished
    (mem_known_of_visitName finds type?_schema visited), ?_⟩
  · rw [collects second visited, finished.collected, List.reverse_reverse]
  · intro isListed
    have unchanged := visitName_of_known (draft.depth + 1) draft.find?
      ((progress.known _).mpr (.inl isListed))
    rw [unchanged] at visited
    cases visited
    have sameLength := congrArg List.length extension.collected
    rw [List.length_append, List.length_reverse, List.length_map] at sameLength
    exact List.eq_nil_of_length_eq_zero (by omega)

/-- Two drafts of the same number of types, with the same names, that lead to listed types only,
gain the same types when they are collected. -/
theorem collect_of_closed_alike {first second : Draft ε} {listed listed' : List NamedType}
    (known : first.types = listed.map .ofType) (known' : second.types = listed'.map .ofType)
    (closed : ∀ type ∈ listed, ∀ name ∈ type.references, name ∈ listed.map NamedType.name)
    (closed' : ∀ type ∈ listed', ∀ name ∈ type.references, name ∈ listed'.map NamedType.name)
    (own : ∀ name ∈ first.ownReferences, name ∈ listed.map NamedType.name)
    (own' : ∀ name ∈ second.ownReferences, name ∈ listed'.map NamedType.name)
    (sameNames : (listed.map NamedType.name).Perm (listed'.map NamedType.name)) :
    ∃ added, first.collect = .ok ((listed ++ added).map .ofType) ∧
      second.collect = .ok ((listed' ++ added).map .ofType) := by
  obtain ⟨state, progress, collects⟩ := first.collect_up_to_description known closed own
  obtain ⟨state', progress', collects'⟩ := second.collect_up_to_description known' closed' own'
  have sameDepth : second.depth = first.depth := by
    have sameLength := sameNames.length_eq
    rw [List.length_map, List.length_map] at sameLength
    rw [depth, depth, known, known', List.length_map, List.length_map, sameLength]
  have sameKnown : ∀ name, name ∈ state.known ↔ name ∈ state'.known := by
    intro name
    rw [progress.known, progress'.known, or_self, or_self, sameNames.mem_iff]
  obtain ⟨finish, finish', added, visited, visited', extension, extension'⟩ :=
    visitName_adds_alike (first.depth + 1) (Text.ofString "__Schema") sameKnown
      (progress.findsStandard fun _ => find?_of_unlisted known)
      (progress'.findsStandard fun _ => find?_of_unlisted known')
  refine ⟨added, ?_, ?_⟩
  · rw [collects finish visited, (progress.extend extension).collected, List.reverse_reverse]
  · rw [collects' finish' (sameDepth ▸ visited'), (progress'.extend extension').collected,
      List.reverse_reverse]

end Draft

end SchemaOrder.Schema
