import Mathlib.Logic.Relation
import Mathlib.Order.WellFounded
import SchemaOrder.Proofs.Collections
import SchemaOrder.Schema.Rules

/-!
# Input objects that need themselves

Validation follows the fields of input objects that refuse null, and reports an input object
that it comes back to. Which path it reports depends on where it starts; whether it reports
anything does not. `found_followInputs` says that it finds nothing where no input object needs a
value of itself, and `followInputs_ends` that where it finds nothing, all that it has left behind
needs nothing that goes round in circles.
-/

namespace SchemaOrder.Schema

variable {schema : Schema}

/-- The fields of the input object with a name. -/
def inputFields? (schema : Schema) (name : Text) : Option (List InputValue) :=
  match (schema.type? name).map NamedType.body with
  | some (.inputObject fields _) => some fields
  | _ => none

/-- A value of one input object holds a value of another one, which must not be null. -/
def Needs (schema : Schema) (name next : Text) : Prop :=
  ∃ fields, schema.inputFields? name = some fields ∧
    (∃ field ∈ fields, field.type = .nonNull (.named next)) ∧ (schema.inputFields? next).isSome

/-- No input object needs a value of itself. -/
def WithoutCircles (schema : Schema) : Prop :=
  ∀ name, ¬ Relation.TransGen schema.Needs name name

/-- Nothing that an input object needs goes round in circles for ever. -/
abbrev Ends (schema : Schema) (name : Text) : Prop :=
  Acc (fun next name => schema.Needs name next) name

/-- An input object from which every way ends does not need itself. -/
theorem Ends.not_needs_itself {name : Text} (ends : schema.Ends name) :
    ¬ Relation.TransGen schema.Needs name name := by
  intro circle
  induction ends with
  | intro name ends inductionHypothesis =>
      obtain ⟨next, needed, rest⟩ := Relation.TransGen.head'_iff.mp circle
      exact inductionHypothesis next needed (.tail' rest needed)

namespace Rules

/-- One field on the way of the search: what it refuses to be without is followed, and a circle
is reported if it stands on the trail. -/
def followField (fuel : Nat) (schema : Schema) (trail : InputTrail) (path : List Text)
    (search : InputSearch) (field : InputValue) : InputSearch :=
  match field.type with
  | .nonNull (.named next) =>
    match schema.inputFields? next with
    | some nextFields =>
      match trail.find? fun entry => entry.1 = next with
      | some (_, start) =>
        { search with
          found := .circularInput next ((path ++ [field.name]).drop start) :: search.found }
      | none => followInputs fuel schema trail (path ++ [field.name]) search next nextFields
    | none => search
  | _ => search

/-- An input object that was not visited is visited, and its fields are followed. -/
theorem followInputs_succ (fuel : Nat) (schema : Schema) (trail : InputTrail) (path : List Text)
    (search : InputSearch) (name : Text) (fields : List InputValue) :
    followInputs (fuel + 1) schema trail path search name fields =
      if search.visited.contains name then search
      else fields.foldl (followField fuel schema ((name, path.length) :: trail) path)
        { search with visited := name :: search.visited } := by
  rw [followInputs]
  congr 1
  refine congrArg (fun step => fields.foldl step _) ?_
  funext search field
  obtain ⟨fieldName, type, default?, description, deprecation⟩ := field
  cases type with
  | named | list => rfl
  | nonNull inner =>
      cases inner with
      | list | nonNull => rfl
      | named next =>
          simp only [followField, inputFields?]
          cases (schema.type? next).map NamedType.body with
          | none => rfl
          | some body => cases body <;> rfl

/-- Following goes on: nothing that was visited or found before is lost. -/
structure Grows (start finish : InputSearch) : Prop where
  visited : start.visited ⊆ finish.visited
  found : start.found ⊆ finish.found

/-- Nothing is lost where nothing is followed. -/
theorem Grows.refl (search : InputSearch) : Grows search search :=
  ⟨List.Subset.refl _, List.Subset.refl _⟩

/-- Nothing is lost in two steps. -/
theorem Grows.trans {start middle finish : InputSearch} (earlier : Grows start middle)
    (later : Grows middle finish) : Grows start finish :=
  ⟨List.Subset.trans earlier.visited later.visited, List.Subset.trans earlier.found later.found⟩

/-- Where nothing is found in the end, nothing was found before. -/
theorem Grows.found_eq_nil {start finish : InputSearch} (grows : Grows start finish)
    (nothing : finish.found = []) : start.found = [] :=
  List.subset_nil.mp (nothing ▸ grows.found)

variable {fuel : Nat} {trail : InputTrail} {path : List Text} {search : InputSearch} {name : Text}
  {fields : List InputValue}

/-- If following input objects goes on, so does following one field. -/
theorem followField_grows
    (each : ∀ path search name fields,
      Grows search (followInputs fuel schema trail path search name fields))
    (search : InputSearch) (field : InputValue) :
    Grows search (followField fuel schema trail path search field) := by
  unfold followField
  split
  · split
    · split
      · exact ⟨List.Subset.refl _, List.subset_cons_self _ _⟩
      · exact each _ _ _ _
    · exact .refl search
  · exact .refl search

/-- If following one field goes on, so does following several. -/
theorem foldl_followField_grows
    (each : ∀ search field, Grows search (followField fuel schema trail path search field))
    (search : InputSearch) (fields : List InputValue) :
    Grows search (fields.foldl (followField fuel schema trail path) search) :=
  List.foldlRecOn fields _ (.refl search) fun _ before field _ => before.trans (each _ field)

/-- Following an input object goes on. -/
theorem followInputs_grows (fuel : Nat) (schema : Schema) (trail : InputTrail) (path : List Text)
    (search : InputSearch) (name : Text) (fields : List InputValue) :
    Grows search (followInputs fuel schema trail path search name fields) := by
  induction fuel generalizing trail path search name fields with
  | zero => exact .refl search
  | succ fuel inductionHypothesis =>
      rw [followInputs_succ]
      split
      · exact .refl search
      · have entered : Grows search { search with visited := name :: search.visited } :=
          ⟨List.subset_cons_self _ _, List.Subset.refl _⟩
        exact entered.trans (foldl_followField_grows (followField_grows
          (inductionHypothesis _)) _ fields)

/-- How many types were not visited. Every step down of the search makes it smaller. -/
def unvisited (schema : Schema) (search : InputSearch) : Nat :=
  schema.types.countP fun type => !search.visited.contains type.name

/-- Where more was visited, less is unvisited. -/
theorem Grows.unvisited_le {start finish : InputSearch} (grows : Grows start finish) :
    unvisited schema finish ≤ unvisited schema start := by
  apply List.countP_mono_left
  intro type _ fresh
  simp only [List.contains_eq_mem, Bool.not_eq_true', decide_eq_false_iff_not] at fresh ⊢
  exact fun before => fresh (grows.visited before)

/-- Visiting an input object for the first time leaves fewer types unvisited. -/
theorem unvisited_enter (isInput : schema.inputFields? name = some fields)
    (fresh : name ∉ search.visited) :
    unvisited schema { search with visited := name :: search.visited } <
      unvisited schema search := by
  cases isType : schema.type? name with
  | none => simp [inputFields?, isType] at isInput
  | some type =>
      have mem := List.mem_of_find?_eq_some isType
      have sameName : type.name = name := by simpa using List.find?_some isType
      subst sameName
      refine countP_lt_countP ?_ mem (by simp) (by simpa using fresh)
      intro other _ unknown
      simp only [List.contains_eq_mem, List.mem_cons, Bool.not_eq_true',
        decide_eq_false_iff_not, not_or] at unknown ⊢
      exact unknown.2

/-- Every input object that was visited is still on the trail, or all ways from it end. -/
def LeftBehind (schema : Schema) (trail : InputTrail) (search : InputSearch) : Prop :=
  ∀ name ∈ search.visited, name ∈ trail.map Prod.fst ∨ schema.Ends name

/-- All ways end from an input object in which nothing is found: what is meant by saying so of
every input object that a search with this fuel and this trail comes to. -/
def FindsEnds (fuel : Nat) (schema : Schema) (trail : InputTrail) : Prop :=
  ∀ {path : List Text} {search : InputSearch} {name : Text} {fields : List InputValue},
    schema.inputFields? name = some fields → unvisited schema search < fuel →
    name ∉ trail.map Prod.fst → LeftBehind schema trail search →
    (followInputs fuel schema trail path search name fields).found = [] →
    LeftBehind schema trail (followInputs fuel schema trail path search name fields) ∧
      schema.Ends name

/-- All ways end from what a field refuses to be without, if nothing is found there. -/
theorem followField_ends (each : FindsEnds fuel schema trail) {field : InputValue}
    (enough : unvisited schema search < fuel) (before : LeftBehind schema trail search)
    (nothing : (followField fuel schema trail path search field).found = []) :
    LeftBehind schema trail (followField fuel schema trail path search field) ∧
      ∀ next, field.type = .nonNull (.named next) → (schema.inputFields? next).isSome →
        schema.Ends next := by
  unfold followField at nothing ⊢
  split at nothing
  · next next isNext =>
      simp only [isNext, TypeReference.nonNull.injEq, TypeReference.named.injEq, forall_eq']
      cases isInput : schema.inputFields? next with
      | none => exact ⟨before, by simp⟩
      | some nextFields =>
          simp only [isInput] at nothing ⊢
          cases onTrail : trail.find? fun entry => entry.1 = next with
          | some entry => simp [onTrail] at nothing
          | none =>
              simp only [onTrail] at nothing ⊢
              have notOnTrail : next ∉ trail.map Prod.fst := by
                intro mem
                obtain ⟨entry, entryMem, rfl⟩ := List.mem_map.mp mem
                exact List.find?_eq_none.mp onTrail entry entryMem (by simp)
              have ends := each isInput enough notOnTrail before nothing
              exact ⟨ends.1, fun _ => ends.2⟩
  · next other => exact ⟨before, fun next isNext => absurd isNext (other next)⟩

/-- All ways end from what one of several fields refuses to be without, if nothing is found. -/
theorem foldl_followField_ends (each : FindsEnds fuel schema trail)
    (enough : unvisited schema search < fuel) (before : LeftBehind schema trail search)
    (nothing : (fields.foldl (followField fuel schema trail path) search).found = []) :
    LeftBehind schema trail (fields.foldl (followField fuel schema trail path) search) ∧
      ∀ field ∈ fields, ∀ next, field.type = .nonNull (.named next) →
        (schema.inputFields? next).isSome → schema.Ends next := by
  have grows : ∀ search field, Grows search (followField fuel schema trail path search field) :=
    followField_grows (followInputs_grows fuel schema trail)
  induction fields generalizing search with
  | nil => exact ⟨before, by simp⟩
  | cons head tail inductionHypothesis =>
      have atHead := (foldl_followField_grows grows _ tail).found_eq_nil nothing
      obtain ⟨middle, headEnds⟩ := followField_ends each enough before atHead
      have stillEnough := Nat.lt_of_le_of_lt (grows search head).unvisited_le enough
      obtain ⟨finish, tailEnds⟩ := inductionHypothesis stillEnough middle nothing
      exact ⟨finish, List.forall_mem_cons.mpr ⟨headEnds, tailEnds⟩⟩

/-- With more fuel than there are unvisited types, all ways end from an input object in which
nothing is found. -/
theorem followInputs_ends (fuel : Nat) (schema : Schema) (trail : InputTrail) :
    FindsEnds fuel schema trail := by
  induction fuel generalizing trail with
  | zero => exact fun _ enough => absurd enough (Nat.not_lt_zero _)
  | succ fuel inductionHypothesis =>
      intro path search name fields isInput enough notOnTrail before nothing
      rw [followInputs_succ] at nothing ⊢
      by_cases visited : name ∈ search.visited
      · simp only [visited, List.contains_eq_mem, decide_true, if_true]
        exact ⟨before, (before name visited).resolve_left notOnTrail⟩
      · simp only [visited, List.contains_eq_mem, decide_false, Bool.false_eq_true, if_false]
          at nothing ⊢
        have entered : LeftBehind schema ((name, path.length) :: trail)
            { search with visited := name :: search.visited } := by
          intro other mem
          rcases List.mem_cons.mp mem with rfl | earlier
          · exact .inl (by simp)
          · exact (before other earlier).imp_left (List.mem_cons_of_mem _)
        have fewer := unvisited_enter isInput visited
        obtain ⟨finish, fieldsEnd⟩ := foldl_followField_ends (inductionHypothesis _)
          (by omega) entered nothing
        have ends : schema.Ends name := by
          constructor
          rintro next ⟨ownFields, isOwn, ⟨field, mem, refuses⟩, isNext⟩
          rw [isInput] at isOwn
          cases isOwn
          exact fieldsEnd field mem next refuses isNext
        refine ⟨fun other mem => ?_, ends⟩
        rcases finish other mem with onTrail | otherEnds
        · rcases List.mem_cons.mp onTrail with rfl | earlier
          · exact .inr ends
          · exact .inl earlier
        · exact .inr otherEnds

/-- Where no input object needs itself, following one that everything on the trail needs finds
nothing. -/
theorem found_followInputs (without : schema.WithoutCircles)
    (isInput : schema.inputFields? name = some fields)
    (needed : ∀ entry ∈ trail, Relation.TransGen schema.Needs entry.1 name) :
    (followInputs fuel schema trail path search name fields).found = search.found := by
  induction fuel generalizing trail path search name fields with
  | zero => rfl
  | succ fuel inductionHypothesis =>
      rw [followInputs_succ]
      split
      · rfl
      refine List.foldlRecOn (motive := fun state : InputSearch => state.found = search.found)
        fields _ rfl fun state same field mem => ?_
      unfold followField
      split
      · next next refuses =>
          split
          · next nextFields isNext =>
              have needs : schema.Needs name next :=
                ⟨fields, isInput, ⟨field, mem, refuses⟩, by simp [isNext]⟩
              have nextNeeded : ∀ entry ∈ (name, path.length) :: trail,
                  Relation.TransGen schema.Needs entry.1 next :=
                List.forall_mem_cons.mpr
                  ⟨.single needs, fun entry entryMem => (needed entry entryMem).tail needs⟩
              split
              · next entry start onTrail =>
                  have circle := nextNeeded _ (List.mem_of_find?_eq_some onTrail)
                  have sameName : entry = next := by simpa using List.find?_some onTrail
                  exact absurd (sameName ▸ circle) (without next)
              · exact (inductionHypothesis isNext nextNeeded).trans same
          · exact same
      · exact same

end Rules

end SchemaOrder.Schema
