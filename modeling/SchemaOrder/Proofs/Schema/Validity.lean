import Mathlib.Tactic.MkIffOfInductiveProp
import SchemaOrder.Proofs.Schema.InputCircles
import SchemaOrder.Proofs.Schema.Saturation

/-!
# Schemas that keep the rules

Validation goes through a schema in its order and reports what it finds on the way.
`violations_eq_nil_iff` says when there is nothing to report, without an order: the operations,
each directive and each type are in order by themselves, and no input object needs a value of
itself.
-/

namespace SchemaOrder.Schema

namespace Rules

/-- What the rules say about one type by itself. -/
def checkType (schema : Schema) (type : NamedType) : List Violation :=
  (if isIntrospectionType type.name then [] else checkName type.name) ++ checkBody schema type

end Rules

/-- A schema all of whose parts are in order. -/
@[mk_iff]
structure KeepsRules (schema : Schema) : Prop where
  roots : Rules.checkRoots schema = []
  directives : ∀ directive ∈ schema.directives, Rules.checkDirective schema directive = []
  types : ∀ type ∈ schema.types, Rules.checkType schema type = []
  circles : schema.WithoutCircles

open Rules

variable {schema : Schema}

/-- Checking a type adds what the rules say about it, and follows it if it is an input object. -/
theorem checkEntry_defined (search : InputSearch) (type : NamedType) :
    checkEntry schema search (.defined type) =
      let search := { search with found := (checkType schema type).reverse ++ search.found }
      match type.body with
      | .inputObject fields _ =>
        followInputs (schema.types.length + 1) schema [] [] search type.name fields
      | _ => search := by
  rfl

/-- The fields of an input object of an intact schema are found under its name. -/
theorem Intact.inputFields?_eq (intact : schema.Intact) {type : NamedType}
    (mem : type ∈ schema.types) {fields : List InputValue} {oneOf : Json}
    (isInput : type.body = .inputObject fields oneOf) :
    schema.inputFields? type.name = some fields := by
  rw [inputFields?, intact.type?_eq_some_iff.mpr ⟨mem, rfl⟩, Option.map_some, isInput]

/-- Checking a type goes on from what the rules say about it by itself. -/
theorem checkEntry_grows_own (search : InputSearch) (type : NamedType) :
    Grows { search with found := (checkType schema type).reverse ++ search.found }
      (checkEntry schema search (.defined type)) := by
  rw [checkEntry_defined]
  dsimp only
  split
  · exact followInputs_grows _ _ _ _ _ _ _
  · exact .refl _

/-- Checking a type goes on. -/
theorem checkEntry_grows (search : InputSearch) (type : NamedType) :
    Grows search (checkEntry schema search (.defined type)) := by
  have added : Grows search
      { search with found := (checkType schema type).reverse ++ search.found } :=
    ⟨List.Subset.refl _, List.subset_append_right _ _⟩
  exact added.trans (checkEntry_grows_own search type)

/-- Where checking types one after the other finds nothing, each is in order by itself, and all
ways from the input objects among them end. -/
theorem checkTypes_sound (intact : schema.Intact) {types : List NamedType}
    (areTypes : types ⊆ schema.types) {search : InputSearch}
    (before : LeftBehind schema [] search)
    (nothing : (types.foldl (fun search type => checkEntry schema search (.defined type))
      search).found = []) :
    ∀ type ∈ types, checkType schema type = [] ∧
      ((schema.inputFields? type.name).isSome → schema.Ends type.name) := by
  induction types generalizing search with
  | nil => exact fun type mem => nomatch mem
  | cons head tail inductionHypothesis =>
      obtain ⟨headMem, tailMem⟩ := List.cons_subset.mp areTypes
      have later : Grows (checkEntry schema search (.defined head))
          ((head :: tail).foldl (fun search type => checkEntry schema search (.defined type))
            search) :=
        List.foldlRecOn tail _ (.refl _) fun state earlier type _ =>
          earlier.trans (checkEntry_grows state type)
      have atHead := later.found_eq_nil nothing
      have inOrder := (checkEntry_grows_own search head).found_eq_nil atHead
      have headInOrder : checkType schema head = [] :=
        List.reverse_eq_nil_iff.mp (List.append_eq_nil_iff.mp inOrder).1
      have step : LeftBehind schema [] (checkEntry schema search (.defined head)) ∧
          ((schema.inputFields? head.name).isSome → schema.Ends head.name) := by
        rw [checkEntry_defined] at atHead ⊢
        dsimp only at atHead ⊢
        split at atHead
        · next fields oneOf isInput =>
            have entered : LeftBehind schema []
                { search with found := (checkType schema head).reverse ++ search.found } := before
            have ends := followInputs_ends _ schema [] (intact.inputFields?_eq headMem isInput)
              (Nat.lt_succ_of_le List.countP_le_length) List.not_mem_nil entered atHead
            exact ⟨ends.1, fun _ => ends.2⟩
        · next other =>
            refine ⟨before, fun isInput => ?_⟩
            rw [inputFields?, intact.type?_eq_some_iff.mpr ⟨headMem, rfl⟩, Option.map_some]
              at isInput
            split at isInput
            · next fields oneOf body => exact absurd (Option.some.inj body) (other fields oneOf)
            · cases isInput
      exact List.forall_mem_cons.mpr
        ⟨⟨headInOrder, step.2⟩, inductionHypothesis tailMem step.1 nothing⟩

/-- Where each type is in order by itself and no input object needs itself, checking types one
after the other finds nothing. -/
theorem checkTypes_complete (intact : schema.Intact) (without : schema.WithoutCircles)
    (inOrder : ∀ type ∈ schema.types, checkType schema type = []) :
    (schema.types.foldl (fun search type => checkEntry schema search (.defined type))
      ⟨[], []⟩).found = [] := by
  refine List.foldlRecOn (motive := fun search : InputSearch => search.found = [])
    schema.types _ rfl fun search nothing type mem => ?_
  rw [checkEntry_defined, inOrder type mem]
  dsimp only
  split
  · next fields oneOf isInput =>
      rw [found_followInputs without (intact.inputFields?_eq mem isInput) (by simp)]
      exact nothing
  · exact nothing

/-- Validation finds nothing in an intact schema exactly if all its parts are in order. -/
theorem violations_eq_nil_iff (intact : schema.Intact) :
    schema.violations = [] ↔ schema.KeepsRules := by
  have entries : ∀ start, schema.index.foldl (checkEntry schema) start =
      schema.types.foldl (fun search type => checkEntry schema search (.defined type)) start := by
    intro start
    rw [intact.index, List.foldl_map]
  rw [violations, entries, List.append_eq_nil_iff, List.append_eq_nil_iff, List.flatMap_eq_nil_iff,
    List.reverse_eq_nil_iff]
  constructor
  · rintro ⟨⟨roots, directives⟩, nothing⟩
    have initially : LeftBehind schema [] ⟨[], []⟩ := fun name mem => nomatch mem
    have each := checkTypes_sound intact (List.Subset.refl schema.types) initially nothing
    refine ⟨roots, directives, fun type mem => (each type mem).1, fun name circle => ?_⟩
    obtain ⟨next, ⟨fields, isInput, -⟩, -⟩ := Relation.TransGen.head'_iff.mp circle
    cases isType : schema.type? name with
    | none => simp [inputFields?, isType] at isInput
    | some type =>
        obtain ⟨mem, rfl⟩ := intact.type?_eq_some_iff.mp isType
        exact ((each type mem).2 (by simp [isInput])).not_needs_itself circle
  · rintro ⟨roots, directives, types, circles⟩
    exact ⟨⟨roots, directives⟩, checkTypes_complete intact circles types⟩

end SchemaOrder.Schema
