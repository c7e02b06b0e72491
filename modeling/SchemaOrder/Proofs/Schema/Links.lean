import SchemaOrder.Proofs.Schema.Assembly
import SchemaOrder.Schema.Construction

/-!
# Links by name

A type object is the draft of a type with owners in it. `TypeObject.unlinked_ofType` says that
nothing but these is lost when they are left out, and `TypeObject.stages_unlinked` that the draft
leads to the names of what the object leads to. Of a draft of objects two things follow: a link that
leads past the object of its name is refused (`ObjectDraft.construct_of_stray`), and where no two
objects of one name can be reached, owners make no difference (`ObjectDraft.construct_eq_assemble`).
-/

namespace SchemaOrder.Schema

variable {ε : Type} {leads : Text → Target}

/-- The name inside a link is that of what the link leads to. -/
theorem Link.base_reference (link : Link) : link.reference.base = link.target.name := by
  induction link with
  | direct target => rfl
  | list inner inductionHypothesis | nonNull inner inductionHypothesis => exact inductionHypothesis

/-- A link leads to what the name inside the reference leads to. -/
theorem Link.target_linked (leads : Text → Target) (reference : TypeReference) :
    (reference.linked leads).target = leads reference.base := by
  induction reference with
  | named name => rfl
  | list inner inductionHypothesis | nonNull inner inductionHypothesis => exact inductionHypothesis

/-- What input fields or arguments lead to, by name. -/
theorem map_name_inputTargets (inputs : List LinkedInput) :
    (inputTargets inputs).map Target.name =
      (inputs.map LinkedInput.unlinked).map fun input => input.type.base := by
  simp [inputTargets, LinkedInput.unlinked, Link.base_reference]

/-- What fields lead to, by name. -/
theorem map_name_fieldTargets (fields : List LinkedField) :
    (fieldTargets fields).map Target.name =
      TypeDraft.fieldReferences (fields.map LinkedField.unlinked) := by
  simp only [fieldTargets, TypeDraft.fieldReferences, List.map_flatMap, List.flatMap_map,
    List.map_cons, map_name_inputTargets]
  simp [LinkedField.unlinked, Link.base_reference]

/-- What linked input fields or arguments lead to. -/
theorem inputTargets_linked (leads : Text → Target) (inputs : List InputValue) :
    inputTargets (inputs.map (InputValue.linked leads)) =
      (inputs.map fun input => input.type.base).map leads := by
  simp [inputTargets, InputValue.linked, Link.target_linked]

/-- What linked fields lead to. -/
theorem fieldTargets_linked (leads : Text → Target) (fields : List Field) :
    fieldTargets (fields.map (Field.linked leads)) =
      (TypeDraft.fieldReferences fields).map leads := by
  simp only [fieldTargets, TypeDraft.fieldReferences, List.map_flatMap, List.flatMap_map,
    List.map_cons, Field.linked, inputTargets_linked, Link.target_linked, List.map_map]

section Names

variable (names : ∀ name, (leads name).name = name)
include names

/-- A reference that is linked by name is the reference again. -/
theorem Link.reference_linked (reference : TypeReference) :
    (reference.linked leads).reference = reference := by
  induction reference with
  | named name => exact congrArg TypeReference.named (names name)
  | list inner inductionHypothesis => exact congrArg TypeReference.list inductionHypothesis
  | nonNull inner inductionHypothesis => exact congrArg TypeReference.nonNull inductionHypothesis

/-- An argument that was linked is the argument again when it is unlinked. -/
theorem LinkedInput.unlinked_linked (input : InputValue) :
    (input.linked leads).unlinked = input := by
  simp [InputValue.linked, LinkedInput.unlinked, Link.reference_linked names]

/-- So are all arguments of a list. -/
theorem LinkedInput.map_unlinked_linked (inputs : List InputValue) :
    (inputs.map (InputValue.linked leads)).map LinkedInput.unlinked = inputs := by
  rw [List.map_map]
  exact (List.map_congr_left fun input _ => unlinked_linked names input).trans (List.map_id _)

/-- So is a field, with its arguments. -/
theorem LinkedField.unlinked_linked (field : Field) : (field.linked leads).unlinked = field := by
  simp [Field.linked, LinkedField.unlinked, Link.reference_linked names,
    LinkedInput.unlinked_linked names, Function.comp_def]

/-- So are all fields of a list. -/
theorem LinkedField.map_unlinked_linked (fields : List Field) :
    (fields.map (Field.linked leads)).map LinkedField.unlinked = fields := by
  rw [List.map_map]
  exact (List.map_congr_left fun field _ => unlinked_linked names field).trans (List.map_id _)

/-- So is a directive. -/
theorem LinkedDirective.unlinked_linked (directive : Directive) :
    (directive.linked leads).unlinked = directive := by
  simp [Directive.linked, LinkedDirective.unlinked, LinkedInput.unlinked_linked names,
    Function.comp_def]

/-- References by name are the names of what they lead to. -/
theorem Target.map_name_leads (references : List Text) :
    (references.map leads).map Target.name = references := by
  rw [List.map_map]
  exact (List.map_congr_left fun name _ => names name).trans (List.map_id _)

/-- The object of a known type is the draft of the type once owners are left out. -/
theorem TypeObject.unlinked_ofType {target : Target} {type : NamedType}
    (sameName : target.name = type.name) :
    (ofType leads target type : TypeObject ε).unlinked = .ofType type := by
  obtain ⟨name, description, body⟩ := type
  obtain rfl : target.name = name := sameName
  cases body <;>
    simp [ofType, unlinked, TypeDraft.ofType, TypeObject.name, Except.map,
      Target.map_name_leads names, LinkedField.map_unlinked_linked names,
      LinkedInput.map_unlinked_linked names]

end Names

namespace TypeObject

/-- The draft that an object is leads to the names of what the object leads to. -/
theorem stages_unlinked (object : TypeObject ε) :
    object.unlinked.stages = object.stages.map (Except.map (List.map Target.name)) := by
  have ofParts {α β : Type} {targets : α → List Target} {change : α → β} {names : β → List Text}
      (same : ∀ value, (targets value).map Target.name = names (change value))
      (parts : Except ε α) :
      (parts.map change).map names = (parts.map targets).map (List.map Target.name) := by
    cases parts with
    | error fault => rfl
    | ok value => exact congrArg Except.ok (same value).symm
  obtain ⟨target, description, body⟩ := object
  cases body with
  | scalar | enum | union => rfl
  | object interfaces fields | interface interfaces fields =>
      exact congrArg (fun stage => [_, stage]) (ofParts map_name_fieldTargets fields)
  | inputObject fields oneOf =>
      exact congrArg (fun stage => [stage]) (ofParts map_name_inputTargets fields)

/-- The object of a known type leads to what the references of the type lead to. -/
theorem of_mem_stages_ofType {target lead : Target} {type : NamedType} {targets : List Target}
    (stage : .ok targets ∈ (ofType leads target type : TypeObject ε).stages)
    (mem : lead ∈ targets) : ∃ name ∈ type.references, lead = leads name := by
  have ofReferences {names : List Text} (isReference : ∀ name ∈ names, name ∈ type.references)
      (isLead : lead ∈ names.map leads) : ∃ name ∈ type.references, lead = leads name := by
    obtain ⟨name, nameMem, rfl⟩ := List.mem_map.mp isLead
    exact ⟨name, isReference name nameMem, rfl⟩
  obtain ⟨name, description, body⟩ := type
  cases body with
  | scalar | enum => cases stage
  | union members =>
      cases Except.ok.inj (List.mem_singleton.mp stage)
      exact ofReferences (fun _ nameMem => nameMem) mem
  | object interfaces fields | interface interfaces fields =>
      rcases List.mem_cons.mp stage with isInterfaces | isFields
      · cases isInterfaces
        exact ofReferences (fun _ nameMem => List.mem_append_left _ nameMem) mem
      · cases List.mem_singleton.mp isFields
        rw [fieldTargets_linked] at mem
        exact ofReferences (fun _ nameMem => List.mem_append_right _ nameMem) mem
  | inputObject fields oneOf =>
      cases Except.ok.inj (List.mem_singleton.mp stage)
      rw [inputTargets_linked] at mem
      exact ofReferences (fun _ nameMem => nameMem) mem

/-- The object of a known type leads to something in every stage. -/
theorem exists_of_mem_stages_ofType {target : Target} {type : NamedType}
    {stage : Except ε (List Target)}
    (mem : stage ∈ (ofType leads target type : TypeObject ε).stages) :
    ∃ targets, stage = .ok targets := by
  obtain ⟨name, description, body⟩ := type
  cases body with
  | scalar | enum => cases mem
  | union members => exact ⟨_, List.mem_singleton.mp mem⟩
  | object interfaces fields | interface interfaces fields =>
      rcases List.mem_cons.mp mem with isInterfaces | isFields
      · exact ⟨_, isInterfaces⟩
      · exact ⟨_, List.mem_singleton.mp isFields⟩
  | inputObject fields oneOf => exact ⟨_, List.mem_singleton.mp mem⟩

end TypeObject

namespace ObjectDraft

variable {draft : ObjectDraft ε} {objects : List (TypeObject ε)} {repeated : Text → ε}

/-- The draft with references by name. -/
def unlinked (draft : ObjectDraft ε) : Draft ε where
  description := draft.description
  query := draft.query.map Target.name
  mutation := draft.mutation.map Target.name
  subscription := draft.subscription.map Target.name
  directives := draft.directives.map LinkedDirective.unlinked
  types := draft.objects.map TypeObject.unlinked
  isTrusted := draft.isTrusted

/-- What a draft itself leads to are the references of the draft by name. -/
theorem map_name_targets (draft : ObjectDraft ε) :
    draft.targets.map Target.name = draft.unlinked.references := by
  have roots : ([draft.query, draft.mutation, draft.subscription].filterMap id).map Target.name =
      [draft.unlinked.query, draft.unlinked.mutation,
        draft.unlinked.subscription].filterMap id := by
    unfold unlinked
    cases draft.query <;> cases draft.mutation <;> cases draft.subscription <;> rfl
  have directive (directive : LinkedDirective) :
      (inputTargets directive.arguments).map Target.name =
        directive.unlinked.arguments.map fun argument => argument.type.base :=
    map_name_inputTargets _
  rw [targets, Draft.references, List.map_append, List.map_append, roots, List.map_flatMap]
  simp only [directive]
  rw [unlinked, List.flatMap_map]
  rfl

/-- The bound on the depth of collecting objects is enough for collecting by name. -/
theorem collect_unlinked (draft : ObjectDraft ε) :
    (Collected.web draft.unlinked.find?).collect
      (draft.objects.length + Standard.types.length + draft.originals.length + 1)
      (draft.objects.map TypeObject.unlinked) (draft.targets.map Target.name) =
        draft.unlinked.collect := by
  rw [map_name_targets]
  exact draft.unlinked.collect_of_enough (by simp [Draft.depth, unlinked])

/-- A draft finds nothing but its own objects, those of the library and those of the original. -/
theorem isSpannedBy (draft : ObjectDraft ε) : draft.web.IsSpannedBy
    (draft.objects.map TypeObject.target ++
      (Standard.types.map (fun type => Target.inLibrary type.name) ++
        draft.originals.map fun type => ⟨.original, type.name⟩)) := by
  intro target object found
  change draft.find? target = some object at found
  unfold find? at found
  split at found
  · next listed isListed =>
    obtain rfl := Option.some.inj found
    have sameTarget : listed.target = target := by simpa using List.find?_some isListed
    have mem := List.mem_of_find?_eq_some isListed
    exact ⟨sameTarget, List.mem_append_left _ (sameTarget ▸ List.mem_map_of_mem mem)⟩
  · obtain ⟨owner, name⟩ := target
    cases owner with
    | sorter => cases found
    | library =>
        obtain ⟨type, isStandard, rfl⟩ := Option.map_eq_some_iff.mp found
        obtain ⟨mem, rfl⟩ := Standard.type?_eq_some isStandard
        exact ⟨rfl, List.mem_append_right _ (List.mem_append_left _ (List.mem_map_of_mem mem))⟩
    | original =>
        obtain ⟨type, isOriginal, rfl⟩ := Option.map_eq_some_iff.mp found
        obtain ⟨mem, rfl⟩ := Named.of_find?_eq_some isOriginal
        exact ⟨rfl, List.mem_append_right _ (List.mem_append_right _ (List.mem_map_of_mem mem))⟩

/-- The objects that are collected are all that can be reached: the objects of the draft, and
whatever the draft or one of them leads to, as far as it can be found. -/
theorem targets_of_collect (collected : draft.collect = .ok objects) :
    draft.objects ⊆ objects ∧
      (∀ target ∈ draft.targets, (draft.find? target).isSome →
        target ∈ objects.map TypeObject.target) ∧
      ∀ object ∈ objects, ∀ targets, .ok targets ∈ object.stages → ∀ target ∈ targets,
        (draft.find? target).isSome → target ∈ objects.map TypeObject.target :=
  Web.collect_settles draft.isSpannedBy (by simp [Nat.add_assoc]) collected

/-- A draft whose objects have different names, and hold everything that is linked to: all that the
draft itself and its objects lead to are objects of the draft. -/
structure IsClosed (draft : ObjectDraft ε) : Prop where
  unique : (draft.objects.map TypeObject.name).Nodup
  own : ∀ target ∈ draft.targets, target ∈ draft.objects.map TypeObject.target
  links : ∀ object ∈ draft.objects, ∀ stage ∈ object.stages, ∃ targets,
    stage = .ok targets ∧ ∀ target ∈ targets, target ∈ draft.objects.map TypeObject.target

/-- Exactly the objects of a closed draft can be reached. -/
theorem collect_of_isClosed (closed : draft.IsClosed) : draft.collect = .ok draft.objects :=
  Web.collect_of_closed _ closed.links closed.own

/-- Two objects of one name are refused. -/
theorem construct_of_repeated (collected : draft.collect = .ok objects)
    (repeats : ¬ (objects.map TypeObject.name).Nodup) :
    ∃ name, draft.construct repeated = .error (repeated name) := by
  obtain ⟨name, isRepeated⟩ :=
    Option.ne_none_iff_exists'.mp (mt Named.repeated?_eq_none_iff.mp repeats)
  refine ⟨name, ?_⟩
  unfold construct
  rw [collected]
  dsimp only [bind, Except.bind]
  rw [isRepeated]
  rfl

/-- A stray link is refused: if the draft, or an object that is collected, leads to something under
the name of another object, there are two objects of that name. -/
theorem construct_of_stray (collected : draft.collect = .ok objects) {object : TypeObject ε}
    (mem : object ∈ objects) {target : Target}
    (leads : target ∈ draft.targets ∨
      ∃ other ∈ objects, ∃ targets, .ok targets ∈ other.stages ∧ target ∈ targets)
    (found : (draft.find? target).isSome) (sameName : target.name = object.name)
    (stray : target ≠ object.target) :
    ∃ name, draft.construct repeated = .error (repeated name) := by
  obtain ⟨-, own, inside⟩ := targets_of_collect collected
  have isCollected : target ∈ objects.map TypeObject.target := by
    rcases leads with isOwn | ⟨other, otherMem, targets, stage, targetMem⟩
    · exact own target isOwn found
    · exact inside other otherMem targets stage target targetMem found
  obtain ⟨another, anotherMem, rfl⟩ := List.mem_map.mp isCollected
  refine construct_of_repeated collected fun unique => stray ?_
  exact congrArg TypeObject.target (List.inj_on_of_nodup_map unique anotherMem mem sameName)

/-- A union of the sorter's whose member is still the original of its own name. -/
example : ObjectDraft.construct id
    { description := none, query := none, mutation := none, subscription := none, directives := []
      objects := [⟨⟨.sorter, "Pet"⟩, none, .union (.ok [⟨.original, "Pet"⟩])⟩]
      originals := [⟨"Pet", none, .union []⟩]
      isTrusted := false } = .error ("Pet" : Text) := by
  rfl

/-- Where the names of all objects that can be reached are different, and collecting by name comes
to the same, a schema is constructed as it is assembled by name. -/
theorem construct_eq_assemble (collected : draft.collect = .ok objects)
    (unique : (objects.map TypeObject.name).Nodup)
    (byName : draft.unlinked.collect = .ok (objects.map TypeObject.unlinked)) :
    draft.construct repeated = draft.unlinked.assemble := by
  have resolved : (objects.mapM fun object => object.unlinked.resolve) =
      (objects.map TypeObject.unlinked).mapM TypeDraft.resolve := by
    rw [List.mapM_map]
    rfl
  unfold construct Draft.assemble
  rw [collected, byName]
  dsimp only [bind, Except.bind]
  rw [Named.repeated?_eq_none_iff.mpr unique]
  dsimp only
  rw [resolved]
  rfl

end ObjectDraft

end SchemaOrder.Schema
