import Mathlib.Data.Set.List
import SchemaOrder.Proofs.Collections
import SchemaOrder.Proofs.Schema.Assembly

/-!
# Assembled schemas hold all that they refer to

What is collected leads to nothing that can be found and is not collected. `assemble_intact` says
what this means for schemas: where the parts that a draft resolves to refer to listed and standard
types only, the schema it becomes is intact.
-/

namespace SchemaOrder.Schema

open Outcome

variable {ε : Type}

/-- Standard types refer to standard types only. -/
theorem Standard.references_standard {type : NamedType} (standard : type ∈ Standard.types)
    {name : Text} (mem : name ∈ type.references) : (Standard.type? name).isSome := by
  have all : ∀ type ∈ Standard.types, ∀ name ∈ type.references,
      (Standard.type? name).isSome := by decide +kernel
  exact all type standard name mem

/-- A standard type is the one that is found under its name. -/
theorem Standard.type?_name {type : NamedType} (standard : type ∈ Standard.types) :
    Standard.type? type.name = some type := by
  have unique : (Standard.types.map NamedType.name).Nodup := by decide +kernel
  exact (Named.find?_eq_some_iff unique).mpr ⟨standard, rfl⟩

/-- The draft that resolves to a type is the draft of that type. -/
theorem TypeDraft.resolve_eq_ok_iff {draft : TypeDraft ε} {type : NamedType} :
    draft.resolve = .ok type ↔ draft = .ofType type := by
  constructor
  · intro resolved
    obtain ⟨name, description, body⟩ := draft
    cases body with
    | scalar | enum =>
        cases resolved
        rfl
    | object interfaces fields | interface interfaces fields =>
        cases interfaces <;> cases fields <;> cases resolved
        rfl
    | union members =>
        cases members <;> cases resolved
        rfl
    | inputObject fields oneOf =>
        cases fields <;> cases resolved
        rfl
  · rintro rfl
    exact TypeDraft.resolve_ofType type

/-- What a type refers to is what the stages of its draft hold. -/
theorem TypeDraft.mem_references_iff {type : NamedType} {name : Text} :
    name ∈ type.references ↔
      ∃ names, .ok names ∈ (ofType type : TypeDraft ε).stages ∧ name ∈ names := by
  obtain ⟨typeName, description, body⟩ := type
  cases body with
  | scalar | enum => simp [stages, ofType, NamedType.references, Body.references]
  | object interfaces fields | interface interfaces fields =>
      simp [stages, ofType, NamedType.references, Body.references, Except.map, or_and_right,
        exists_or]
  | union members => simp [stages, ofType, NamedType.references, Body.references]
  | inputObject fields oneOf =>
      simp [stages, ofType, NamedType.references, Body.references, Except.map]

namespace Draft

open Collected

variable {draft : Draft ε} {listed types : List NamedType} {schema : Schema}

/-- Drafts that all resolve are the drafts of the types they resolve to. -/
theorem eq_map_ofType_of_resolve {drafts : List (TypeDraft ε)}
    (resolved : drafts.mapM TypeDraft.resolve = .ok types) : drafts = types.map .ofType := by
  induction drafts generalizing types with
  | nil =>
      cases resolved
      rfl
  | cons head tail inductionHypothesis =>
      simp only [List.mapM_cons, bind_eq_ok_iff, pure_eq_ok_iff] at resolved
      obtain ⟨type, atHead, others, inTail, rfl⟩ := resolved
      rw [List.map_cons, ← inductionHypothesis inTail, TypeDraft.resolve_eq_ok_iff.mp atHead]

/-- Known types that are collected from a draft hold its types, and all that can be found under the
names that the draft or one of them refers to. -/
theorem references_of_collect (collected : draft.collect = .ok (types.map .ofType)) :
    draft.types ⊆ types.map .ofType ∧
      (∀ name ∈ draft.references, (draft.find? name).isSome → name ∈ types.map NamedType.name) ∧
      ∀ type ∈ types, ∀ name ∈ type.references, (draft.find? name).isSome →
        name ∈ types.map NamedType.name := by
  obtain ⟨listed, own, inside⟩ := Web.collect_settles draft.isSpannedBy (by simp) collected
  rw [List.map_map] at own inside
  refine ⟨listed, own, fun type mem name nameMem => ?_⟩
  obtain ⟨names, stage, inNames⟩ := TypeDraft.mem_references_iff.mp nameMem
  exact inside _ (List.mem_map_of_mem mem) names stage name inNames

/-- A draft can be assembled only if the parts of all its types can be worked out. -/
theorem types_of_assemble (assembled : draft.assemble = .ok schema) :
    ∃ listed : List NamedType, draft.types = listed.map .ofType := by
  obtain ⟨all, collected, rest⟩ := bind_eq_ok_iff.mp assembled
  obtain ⟨types, resolved, -⟩ := bind_eq_ok_iff.mp rest
  rw [eq_map_ofType_of_resolve resolved] at collected
  have areKnown : draft.types ∈ Set.range (List.map (TypeDraft.ofType (ε := ε))) := by
    rw [Set.range_list_map]
    intro type mem
    obtain ⟨known, -, rfl⟩ := List.mem_map.mp ((references_of_collect collected).1 mem)
    exact ⟨known, rfl⟩
  obtain ⟨listed, same⟩ := areKnown
  exact ⟨listed, same.symm⟩

/-- A name under which a draft has something: that of one of its types, or of a standard one. -/
def Knows (draft : Draft ε) (name : Text) : Prop :=
  name ∈ draft.types.map TypeDraft.name ∨ (Standard.type? name).isSome

/-- A draft whose types have different names, and the standard types under theirs, and whose parts,
as far as they can be worked out, refer only to names that it knows. -/
structure Supported (draft : Draft ε) : Prop where
  unique : (draft.types.map TypeDraft.name).Nodup
  standard : ∀ type ∈ draft.types, ∀ standard, Standard.type? type.name = some standard →
    type = .ofType standard
  types : ∀ type ∈ draft.types, ∀ names, .ok names ∈ type.stages →
    ∀ name ∈ names, draft.Knows name
  own : ∀ name ∈ draft.ownReferences, draft.Knows name

/-- Something is found under the names that a draft knows. -/
theorem isSome_find?_iff {name : Text} : (draft.find? name).isSome ↔ draft.Knows name := by
  have listed : (draft.types.find? fun type => type.name = name).isSome ↔
      name ∈ draft.types.map TypeDraft.name :=
    Named.isSome_find?_iff
  unfold find? Knows
  cases isListed : draft.types.find? fun type => type.name = name with
  | some type => simp [listed.mp (by rw [isListed]; rfl)]
  | none =>
      have unlisted : name ∉ draft.types.map TypeDraft.name :=
        fun mem => by simpa [isListed] using listed.mpr mem
      simp [unlisted]

/-- What is collected is listed, or it is a standard type. -/
theorem Recollects.mem_or_mem (recollects : Recollects listed types) {type : NamedType}
    (mem : type ∈ types) : type ∈ listed ∨ type ∈ Standard.types := by
  by_cases isListed : type.name ∈ listed.map NamedType.name
  · rw [← recollects.kept]
    exact .inl (List.mem_filter.mpr ⟨mem, decide_eq_true isListed⟩)
  · exact .inr (recollects.standard type mem isListed)

/-- Where the listed types and the draft itself lead to listed types only, all that the types
behind them lead to is collected too. -/
theorem references_of_collect_of_closed {added : List NamedType}
    (known : draft.types = listed.map .ofType)
    (closed : ∀ type ∈ listed, ∀ name ∈ type.references, name ∈ listed.map NamedType.name)
    (collected : draft.collect = .ok ((listed ++ added).map .ofType)) :
    ∀ type ∈ listed ++ added, ∀ name ∈ type.references,
      name ∈ (listed ++ added).map NamedType.name := by
  obtain ⟨-, -, inside⟩ := references_of_collect collected
  obtain ⟨types, collectedAlso, recollects⟩ := draft.collect_recollects known
  obtain rfl : listed ++ added = types :=
    TypeDraft.ofType_injective.list_map (Except.ok.inj (collected.symm.trans collectedAlso))
  intro type mem name nameMem
  rcases recollects.mem_or_mem mem with isListed | standard
  · rw [List.map_append]
    exact List.mem_append_left _ (closed type isListed name nameMem)
  · exact inside type mem name nameMem
      (isSome_find?_iff.mpr (.inr (Standard.references_standard standard nameMem)))

end Draft

/-- A schema as it is assembled: the index shows the types that can be reached, each under its own
name and the standard types under theirs, it holds all that the schema refers to, and the type
that describes schemas. -/
structure Intact (schema : Schema) : Prop where
  index : schema.index = schema.types.map .defined
  unique : schema.typeNames.Nodup
  closed : schema.Closed
  standard : ∀ type ∈ schema.definedTypes, ∀ standard,
    Standard.type? type.name = some standard → type = standard
  describes : Text.ofString "__Schema" ∈ schema.typeNames

namespace Intact

variable {schema : Schema} {name : Text} {type : NamedType}

/-- The index shows all types and nothing else. -/
theorem definedTypes_eq (intact : schema.Intact) : schema.definedTypes = schema.types := by
  rw [definedTypes, intact.index]
  simp [Entry.type?, Function.comp_def]

/-- The names of the index are those of the types. -/
theorem typeNames_eq (intact : schema.Intact) :
    schema.typeNames = schema.types.map NamedType.name := by
  rw [typeNames_eq_map_definedTypes intact.closed.defined, intact.definedTypes_eq]

/-- What a name leads to is the one type of that name. -/
theorem type?_eq_some_iff (intact : schema.Intact) :
    schema.type? name = some type ↔ type ∈ schema.types ∧ type.name = name :=
  Named.find?_eq_some_iff (intact.typeNames_eq ▸ intact.unique)

end Intact

namespace Draft

open Collected

variable {draft : Draft ε} {schema : Schema}

/-- A schema that is made of types has these types. -/
@[simp] theorem definedTypes_withTypes (draft : Draft ε) (types : List NamedType) :
    (draft.withTypes types).definedTypes = types := by
  simp [definedTypes, withTypes, Entry.type?, Function.comp_def]

/-- It has them under their names. -/
@[simp] theorem typeNames_withTypes (draft : Draft ε) (types : List NamedType) :
    (draft.withTypes types).typeNames = types.map NamedType.name := by
  simp [typeNames, withTypes, Entry.name, Function.comp_def]

/-- A supported draft becomes an intact schema, if it becomes one at all. -/
theorem assemble_intact (supported : draft.Supported) (assembled : draft.assemble = .ok schema) :
    schema.Intact := by
  obtain ⟨listed, known⟩ := types_of_assemble assembled
  obtain ⟨types, collected, recollects⟩ := draft.collect_recollects known
  obtain rfl : draft.withTypes types = schema :=
    Except.ok.inj ((assemble_of_collect collected).symm.trans assembled)
  obtain ⟨-, own, inside⟩ := references_of_collect collected
  have knownTypes : ∀ type ∈ types, ∀ name ∈ type.references, draft.Knows name := by
    intro type mem name nameMem
    rcases recollects.mem_or_mem mem with isListed | standard
    · obtain ⟨names, stage, inNames⟩ := TypeDraft.mem_references_iff.mp nameMem
      have inDraft : TypeDraft.ofType type ∈ draft.types := known ▸ List.mem_map_of_mem isListed
      exact supported.types _ inDraft names stage name inNames
    · exact .inr (Standard.references_standard standard nameMem)
  have inIndex : ∀ name ∈ draft.ownReferences, name ∈ (draft.withTypes types).typeNames := by
    intro name mem
    rw [typeNames_withTypes]
    exact own name (List.mem_append_left _ mem) (isSome_find?_iff.mpr (supported.own name mem))
  have uniqueListed : (listed.map NamedType.name).Nodup := by
    simpa [known, Function.comp_def] using supported.unique
  refine ⟨rfl, ?_, ⟨?_, ?_, ?_, ?_⟩, ?_, ?_⟩
  · rw [typeNames_withTypes]
    exact recollects.unique uniqueListed
  · intro entry mem
    obtain ⟨type, -, rfl⟩ := List.mem_map.mp mem
    exact ⟨type, rfl⟩
  · intro type mem name nameMem
    rw [definedTypes_withTypes] at mem
    rw [typeNames_withTypes]
    exact inside type mem name nameMem (isSome_find?_iff.mpr (knownTypes type mem name nameMem))
  · intro directive mem name nameMem
    refine inIndex name (List.mem_append_right _ ?_)
    exact List.mem_flatMap.mpr ⟨directive, mem, nameMem⟩
  · intro name mem
    refine inIndex name (List.mem_append_left _ ?_)
    exact List.mem_filterMap.mpr ⟨some name, mem, rfl⟩
  · intro type mem standard isStandard
    rw [definedTypes_withTypes] at mem
    rcases recollects.mem_or_mem mem with isListed | inStandard
    · have inDraft : TypeDraft.ofType type ∈ draft.types := known ▸ List.mem_map_of_mem isListed
      exact TypeDraft.ofType_injective (supported.standard _ inDraft standard isStandard)
    · exact Option.some.inj ((Standard.type?_name inStandard).symm.trans isStandard)
  · rw [typeNames_withTypes]
    exact recollects.describes

end Draft

end SchemaOrder.Schema
