import SchemaOrder.Proofs.Schema.Saturation
import SchemaOrder.Schema.OfIntrospection

/-!
# References of introspection results

Every part of a described type that names a type looks the name up among the described types
first, so that a part which can be worked out refers only to types that are listed.
`ofIntrospection_intact` concludes that whatever schema a description describes is intact.
-/

namespace SchemaOrder.Schema

open Outcome

namespace Described

variable {types : List DescribedType}

/-- A value that is used as a name stays what it is. -/
theorem eq_of_asKey {value key : Json} (given : ask value.asKey = .ok key) : value = key := by
  have isKey := mapError_eq_ok_iff.mp given
  cases value <;> cases isKey <;> rfl

/-- A name whose kind can be told is a text, and a type of that name is described. -/
theorem listed_of_kindOf {name : Json} {kind : TypeKind} (found : kindOf types name = .ok kind) :
    ∃ content, name = .text content ∧ content ∈ types.map DescribedType.name := by
  obtain ⟨key, isKey, found⟩ := bind_eq_ok_iff.mp found
  cases eq_of_asKey isKey
  cases name with
  | text content =>
      refine ⟨content, rfl, ?_⟩
      cases isListed : Named.find? DescribedType.name content types with
      | none => simp [isListed, fault] at found
      | some type => exact Named.isSome_find?_iff.mp (by simp [isListed])
  | _ => cases found

/-- The references that descriptions make. The word for a level says what stands around it; the
level inside is there and is itself described, and a name is that of a described type. -/
inductive MakesReference (types : List DescribedType) : Json → TypeReference → Prop where
  | list {value kind inner : Json} {reference : TypeReference}
      (isKind : value.lookup "kind" = .ok kind) (isList : isWord "LIST" kind = true)
      (isInner : value.lookup "ofType" = .ok inner) (isThere : inner.isFalsy = false)
      (inside : MakesReference types inner reference) : MakesReference types value (.list reference)
  | nonNull {value kind inner : Json} {reference : TypeReference}
      (isKind : value.lookup "kind" = .ok kind) (notList : isWord "LIST" kind = false)
      (isNonNull : isWord "NON_NULL" kind = true) (isInner : value.lookup "ofType" = .ok inner)
      (isThere : inner.isFalsy = false) (nullable : reference.isNonNull = false)
      (inside : MakesReference types inner reference) :
      MakesReference types value (.nonNull reference)
  | named {value kind : Json} {content : Text}
      (isKind : value.lookup "kind" = .ok kind) (notList : isWord "LIST" kind = false)
      (notNonNull : isWord "NON_NULL" kind = false)
      (isName : value.lookup "name" = .ok (.text content))
      (listed : content ∈ types.map DescribedType.name) :
      MakesReference types value (.named content)

/-- What is read of a description of a reference is what the description makes. -/
theorem makesReference_of_referenceWith {fuel : Nat} {value : Json} {reference : TypeReference}
    (given : referenceWith fuel types value = .ok reference) :
    MakesReference types value reference := by
  induction fuel generalizing value reference with
  | zero => cases given
  | succ fuel inductionHypothesis =>
      obtain ⟨kind, isKind, rest⟩ := bind_eq_ok_iff.mp given
      rw [ask, mapError_eq_ok_iff] at isKind
      split at rest
      · next isList =>
          obtain ⟨inner, isInner, rest⟩ := bind_eq_ok_iff.mp rest
          split at rest
          · cases rest
          next isThere =>
          obtain ⟨reference, inside, rest⟩ := bind_eq_ok_iff.mp rest
          cases rest
          exact .list isKind isList (mapError_eq_ok_iff.mp isInner) (Bool.eq_false_iff.mpr isThere)
            (inductionHypothesis inside)
      next notList =>
      split at rest
      · next isNonNull =>
          obtain ⟨inner, isInner, rest⟩ := bind_eq_ok_iff.mp rest
          split at rest
          · cases rest
          next isThere =>
          obtain ⟨reference, inside, rest⟩ := bind_eq_ok_iff.mp rest
          split at rest
          · cases rest
          next nullable =>
          cases rest
          exact .nonNull isKind (Bool.eq_false_iff.mpr notList) isNonNull
            (mapError_eq_ok_iff.mp isInner) (Bool.eq_false_iff.mpr isThere)
            (Bool.eq_false_iff.mpr nullable) (inductionHypothesis inside)
      next notNonNull =>
      obtain ⟨name, isName, rest⟩ := bind_eq_ok_iff.mp rest
      split at rest
      · cases rest
      obtain ⟨_, found, rest⟩ := bind_eq_ok_iff.mp rest
      cases rest
      obtain ⟨content, rfl, listed⟩ := listed_of_kindOf found
      exact .named isKind (Bool.eq_false_iff.mpr notList) (Bool.eq_false_iff.mpr notNonNull)
        (mapError_eq_ok_iff.mp isName) listed

/-- A reference that is described leads to a described type. -/
theorem listed_of_referenceWith {fuel : Nat} {value : Json} {reference : TypeReference}
    (given : referenceWith fuel types value = .ok reference) :
    reference.base ∈ types.map DescribedType.name := by
  have made := makesReference_of_referenceWith given
  clear given
  induction made with
  | list _ _ _ _ _ listed | nonNull _ _ _ _ _ _ _ listed => exact listed
  | named _ _ _ _ listed => exact listed

/-- A reference to a type of a kind leads to a described type. -/
theorem listed_of_referenceOfKind {kind : TypeKind} {words : Text} {value : Json} {name : Text}
    (given : referenceOfKind types kind words value = .ok name) :
    name ∈ types.map DescribedType.name := by
  obtain ⟨reference, isReference, rest⟩ := bind_eq_ok_iff.mp given
  have listed := listed_of_referenceWith isReference
  cases reference with
  | named base =>
      obtain ⟨found, -, rest⟩ := bind_eq_ok_iff.mp rest
      split at rest
      · cases rest
        exact listed
      · cases rest
  | _ => cases rest

/-- Putting parts together by name makes no new parts. -/
theorem mem_of_mem_keyed {α : Type} {parts : List (Json × α)} {part : Json × α}
    (mem : part ∈ keyed parts) : part.2 ∈ parts.map Prod.snd := by
  have all : ∀ part ∈ keyed parts, part.2 ∈ parts.map Prod.snd := by
    refine List.foldlRecOn (motive := fun known : List (Json × α) =>
      ∀ part ∈ known, part.2 ∈ parts.map Prod.snd) parts _ (by simp) ?_
    intro known before new newMem part mem
    split at mem
    · obtain ⟨other, otherMem, rfl⟩ := List.mem_map.mp mem
      split
      · exact List.mem_map.mpr ⟨new, newMem, rfl⟩
      · exact before other otherMem
    · rcases List.mem_append.mp mem with earlier | last
      · exact before part earlier
      · rw [List.mem_singleton.mp last]
        exact List.mem_map_of_mem newMem
  exact all part mem

/-- Every part that is collected was made. -/
theorem made_of_collect {α : Type} {make : Json → Except SchemaFault α} {value : Json}
    {parts : List (Json × α)} (given : collect make value = .ok parts) :
    ∀ part ∈ parts, ∃ source, make source = .ok part.2 := by
  obtain ⟨elements, -, rest⟩ := bind_eq_ok_iff.mp given
  obtain ⟨all, made, rest⟩ := bind_eq_ok_iff.mp rest
  cases rest
  intro part mem
  obtain ⟨entry, entryMem, same⟩ := List.mem_map.mp (mem_of_mem_keyed mem)
  obtain ⟨source, -, makes⟩ := exists_of_mem_mapM made entryMem
  obtain ⟨name, -, makes⟩ := bind_eq_ok_iff.mp makes
  obtain ⟨result, isMade, makes⟩ := bind_eq_ok_iff.mp makes
  obtain ⟨key, -, ⟨⟩⟩ := bind_eq_ok_iff.mp makes
  exact ⟨source, same ▸ isMade⟩

/-- Checking the names of parts leaves the parts alone. -/
theorem map_snd_checkedParts {α : Type} {parts : List (Json × α)} {checked : List (Text × α)}
    (given : checkedParts parts = .ok checked) : checked.map Prod.snd = parts.map Prod.snd := by
  refine map_eq_map_of_mapM (fun part result makes => ?_) given
  obtain ⟨name, -, ⟨⟩⟩ := bind_eq_ok_iff.mp makes
  rfl

/-- Every part that is collected and has a checked name was made. -/
theorem made_of_checkedParts {α : Type} {make : Json → Except SchemaFault α} {value : Json}
    {parts : List (Json × α)} {checked : List (Text × α)} (given : collect make value = .ok parts)
    (isChecked : checkedParts parts = .ok checked) :
    ∀ part ∈ checked, ∃ source, make source = .ok part.2 := by
  intro part mem
  have inParts := List.mem_map_of_mem (f := Prod.snd) mem
  rw [map_snd_checkedParts isChecked] at inParts
  obtain ⟨entry, entryMem, same⟩ := List.mem_map.mp inParts
  exact same ▸ made_of_collect given entry entryMem

/-- An argument or an input field that is described refers to a described type. -/
theorem listed_of_inputValue {inputs : InputTypes SchemaFault} {place subject : Text}
    {source : Json} {value : InputValue}
    (given : inputValue inputs types place subject source = .ok value) :
    value.type.base ∈ types.map DescribedType.name := by
  obtain ⟨member, -, rest⟩ := bind_eq_ok_iff.mp given
  obtain ⟨reference, isReference, rest⟩ := bind_eq_ok_iff.mp rest
  obtain ⟨kind, -, rest⟩ := bind_eq_ok_iff.mp rest
  split at rest
  · cases rest
  · simp only [bind_eq_ok_iff, pure_eq_ok_iff] at rest
    obtain ⟨_, -, _, -, _, -, _, -, _, -, _, -, rfl⟩ := rest
    exact listed_of_referenceWith isReference

/-- Arguments that are described, each under its name, refer to described types. -/
theorem listed_of_named {inputs : InputTypes SchemaFault} {place subject : Text} {value : Json}
    {parts : List (Json × InputValue)} {checked : List (Text × InputValue)}
    (given : collect (inputValue inputs types place subject) value = .ok parts)
    (isChecked : checkedParts parts = .ok checked) :
    ∀ input ∈ named checked, input.type.base ∈ types.map DescribedType.name := by
  refine List.forall_mem_map.mpr fun part mem => ?_
  obtain ⟨source, made⟩ := made_of_checkedParts given isChecked part mem
  have listed := listed_of_inputValue made
  exact listed

/-- A field that is described refers to described types. -/
theorem listed_of_field {value : Json} {field : Field}
    (given : Described.field types value = .ok field) :
    ∀ name ∈ TypeDraft.fieldReferences [field], name ∈ types.map DescribedType.name := by
  obtain ⟨member, -, rest⟩ := bind_eq_ok_iff.mp given
  obtain ⟨reference, isReference, rest⟩ := bind_eq_ok_iff.mp rest
  obtain ⟨kind, -, rest⟩ := bind_eq_ok_iff.mp rest
  split at rest
  · cases rest
  · obtain ⟨described, -, rest⟩ := bind_eq_ok_iff.mp rest
    split at rest
    · cases rest
    · simp only [bind_eq_ok_iff, pure_eq_ok_iff] at rest
      obtain ⟨arguments, collected, _, -, _, -, checked, isChecked, _, -, _, -, rfl⟩ := rest
      intro name mem
      simp only [TypeDraft.fieldReferences, List.flatMap_singleton, List.mem_cons, List.mem_map]
        at mem
      rcases mem with rfl | ⟨argument, argumentMem, rfl⟩
      · exact listed_of_referenceWith isReference
      · exact listed_of_named collected isChecked argument argumentMem

/-- The fields of an object or an interface refer to described types. -/
theorem listed_of_fields {type : DescribedType} {fields : List Field}
    (given : Described.fields types type = .ok fields) :
    ∀ name ∈ TypeDraft.fieldReferences fields, name ∈ types.map DescribedType.name := by
  obtain ⟨parts, collects, rest⟩ := bind_eq_ok_iff.mp given
  obtain ⟨described, -, collects⟩ := bind_eq_ok_iff.mp (mapError_eq_ok_iff.mp collects)
  split at collects
  · cases collects
  split at rest
  · cases rest
  obtain ⟨checked, isChecked, rest⟩ := bind_eq_ok_iff.mp rest
  cases rest
  intro name mem
  obtain ⟨field, fieldMem, inField⟩ := List.mem_flatMap.mp mem
  obtain ⟨part, partMem, rfl⟩ := List.mem_map.mp fieldMem
  obtain ⟨source, made⟩ := made_of_checkedParts collects isChecked part partMem
  exact listed_of_field made name (by simpa [TypeDraft.fieldReferences] using inField)

/-- The fields of an input object refer to described types. -/
theorem listed_of_inputFields {inputs : InputTypes SchemaFault} {type : DescribedType}
    {fields : List InputValue} (given : inputFields inputs types type = .ok fields) :
    ∀ field ∈ fields, field.type.base ∈ types.map DescribedType.name := by
  obtain ⟨parts, collects, rest⟩ := bind_eq_ok_iff.mp given
  obtain ⟨described, -, collects⟩ := bind_eq_ok_iff.mp (mapError_eq_ok_iff.mp collects)
  split at rest
  · cases rest
  obtain ⟨checked, isChecked, rest⟩ := bind_eq_ok_iff.mp rest
  cases rest
  exact listed_of_named collects isChecked

/-- References to types of a kind, one after the other, lead to described types. -/
theorem listed_of_mapM_referenceOfKind {kind : TypeKind} {words : Text} {values : List Json}
    {names : List Text} (given : values.mapM (referenceOfKind types kind words) = .ok names) :
    ∀ name ∈ names, name ∈ types.map DescribedType.name := by
  intro name mem
  obtain ⟨value, -, isReference⟩ := exists_of_mem_mapM given mem
  exact listed_of_referenceOfKind isReference

/-- The interfaces that a type implements are described types. -/
theorem listed_of_interfaces {type : DescribedType} {names : List Text}
    (given : Described.interfaces types type = .ok names) :
    ∀ name ∈ names, name ∈ types.map DescribedType.name := by
  obtain ⟨described, -, rest⟩ := bind_eq_ok_iff.mp (mapError_eq_ok_iff.mp given)
  split at rest
  · split at rest
    · cases rest
      exact fun name mem => nomatch mem
    · cases rest
  · obtain ⟨values, -, references⟩ := bind_eq_ok_iff.mp rest
    exact listed_of_mapM_referenceOfKind references

/-- The members of a union are described types. -/
theorem listed_of_members {type : DescribedType} {names : List Text}
    (given : members types type = .ok names) :
    ∀ name ∈ names, name ∈ types.map DescribedType.name := by
  obtain ⟨described, -, rest⟩ := bind_eq_ok_iff.mp (mapError_eq_ok_iff.mp given)
  obtain ⟨values, -, references⟩ := bind_eq_ok_iff.mp rest
  exact listed_of_mapM_referenceOfKind references

/-- The arguments of a directive refer to described types. -/
theorem listed_of_directive {value : Json} {directive : Directive}
    (given : Described.directive types value = .ok directive) :
    ∀ name ∈ directive.references, name ∈ types.map DescribedType.name := by
  obtain ⟨described, -, rest⟩ := bind_eq_ok_iff.mp given
  split at rest
  · cases rest
  obtain ⟨places, -, rest⟩ := bind_eq_ok_iff.mp rest
  split at rest
  · cases rest
  simp only [bind_eq_ok_iff] at rest
  obtain ⟨_, -, _, -, _, -, _, -, arguments, collected, _, -, _, -, rest⟩ := rest
  split at rest
  · cases rest
  obtain ⟨checked, isChecked, rest⟩ := bind_eq_ok_iff.mp rest
  split at rest
  · simp only [bind_eq_ok_iff, pure_eq_ok_iff] at rest
    obtain ⟨_, -, _, -, rfl⟩ := rest
    exact List.forall_mem_map.mpr (listed_of_named collected isChecked)
  · cases rest

/-- The directives that are described refer to described types. -/
theorem listed_of_directives {schema : Json} {directives : List Directive}
    (given : Described.directives types schema = .ok directives) :
    ∀ directive ∈ directives, ∀ name ∈ directive.references,
      name ∈ types.map DescribedType.name := by
  obtain ⟨value, -, rest⟩ := bind_eq_ok_iff.mp given
  split at rest
  · cases rest
    exact fun directive mem => nomatch mem
  · obtain ⟨values, -, made⟩ := bind_eq_ok_iff.mp rest
    intro directive mem
    obtain ⟨source, -, made⟩ := exists_of_mem_mapM made mem
    exact listed_of_directive made

/-- The type that serves an operation is a described type. -/
theorem listed_of_root {schema : Json} {operation name : Text}
    (given : Described.root types schema operation = .ok (some name)) :
    name ∈ types.map DescribedType.name := by
  obtain ⟨value, -, rest⟩ := bind_eq_ok_iff.mp given
  split at rest
  · cases rest
  · obtain ⟨found, isReference, ⟨⟩⟩ := bind_eq_ok_iff.mp rest
    exact listed_of_referenceOfKind isReference

/-- The operations and the directives that are described lead to described types. -/
theorem listed_of_ownReferences {draft : Draft SchemaFault} {schema : Json} {name : Text}
    (mem : name ∈ draft.ownReferences)
    (isQuery : Described.root types schema "queryType" = .ok draft.query)
    (isMutation : Described.root types schema "mutationType" = .ok draft.mutation)
    (isSubscription : Described.root types schema "subscriptionType" = .ok draft.subscription)
    (areDirectives : Described.directives types schema = .ok draft.directives) :
    name ∈ types.map DescribedType.name := by
  rcases List.mem_append.mp mem with isRoot | inDirectives
  · obtain ⟨root, rootMem, rfl⟩ := List.mem_filterMap.mp isRoot
    simp only [List.mem_cons, List.not_mem_nil, or_false] at rootMem
    rcases rootMem with isRoot | isRoot | isRoot
    · exact listed_of_root (isRoot ▸ isQuery)
    · exact listed_of_root (isRoot ▸ isMutation)
    · exact listed_of_root (isRoot ▸ isSubscription)
  · obtain ⟨directive, directiveMem, nameMem⟩ := List.mem_flatMap.mp inDirectives
    exact listed_of_directives areDirectives directive directiveMem name nameMem

/-- A standard type that a name is of is found under its own name. -/
theorem type?_name_of_standard? {name : Json} {type : NamedType}
    (given : standard? name = .ok (some type)) : Standard.type? type.name = some type := by
  obtain ⟨key, -, rest⟩ := bind_eq_ok_iff.mp given
  split at rest
  · have found := Except.ok.inj rest
    rwa [(Standard.type?_eq_some found).2]
  · cases rest

/-- Where the outline of a type is a standard type, the type has the name of that one. -/
theorem standard_of_outlineOfKind {kind : TypeKind} {key value : Json} {name : Text}
    {standard : NamedType} (given : outlineOfKind kind key value = .ok (name, .standard standard)) :
    Standard.type? name = some standard := by
  have ofStandard : ∀ type, standard? key = .ok (some type) →
      (type.name, Outline.standard type) = (name, .standard standard) →
        Standard.type? name = some standard := by
    rintro type isStandard ⟨⟩
    exact type?_name_of_standard? isStandard
  cases kind with
  | scalar =>
      obtain ⟨found, isStandard, rest⟩ := bind_eq_ok_iff.mp given
      cases found with
      | some type => exact ofStandard type isStandard (Except.ok.inj rest)
      | none =>
          simp only [bind_eq_ok_iff] at rest
          obtain ⟨_, -, _, -, _, -, rest⟩ := rest
          split at rest <;> cases rest
  | object =>
      obtain ⟨found, isStandard, rest⟩ := bind_eq_ok_iff.mp given
      cases found with
      | some type => exact ofStandard type isStandard (Except.ok.inj rest)
      | none =>
          simp only [bind_eq_ok_iff] at rest
          obtain ⟨_, -, _, -, ⟨⟩⟩ := rest
  | enum =>
      obtain ⟨values, -, rest⟩ := bind_eq_ok_iff.mp given
      split at rest
      · cases rest
      obtain ⟨found, isStandard, rest⟩ := bind_eq_ok_iff.mp rest
      cases found with
      | some type => exact ofStandard type isStandard (Except.ok.inj rest)
      | none =>
          simp only [bind_eq_ok_iff] at rest
          obtain ⟨_, -, _, -, _, -, _, -, ⟨⟩⟩ := rest
  | interface =>
      simp only [outlineOfKind, compositeOutline, bind_eq_ok_iff] at given
      obtain ⟨_, -, _, -, _, -, _, -, ⟨⟩⟩ := given
  | union | inputObject =>
      obtain ⟨found, -, rest⟩ := bind_eq_ok_iff.mp given
      split at rest
      · cases rest
      simp only [bind_eq_ok_iff] at rest
      obtain ⟨_, -, _, -, _, -, _, -, ⟨⟩⟩ := rest

/-- A type whose outline is a standard type has the name of that type. -/
theorem standard_of_outline {value : Json} {type : DescribedType} {standard : NamedType}
    (given : outline value = .ok (type, .standard standard)) :
    Standard.type? type.name = some standard := by
  obtain ⟨name, -, rest⟩ := bind_eq_ok_iff.mp given
  split at rest
  · cases rest
  obtain ⟨word, -, rest⟩ := bind_eq_ok_iff.mp rest
  split at rest
  · cases rest
  obtain ⟨⟨name, outline⟩, made, ⟨⟩⟩ := bind_eq_ok_iff.mp rest
  exact standard_of_outlineOfKind made

/-- The draft of a described type has its name. -/
theorem name_typeDraft {value : Json} {type : DescribedType} {outline : Outline}
    (given : Described.outline value = .ok (type, outline)) :
    (typeDraft types type outline).name = type.name := by
  cases isStandard : Standard.type? type.name with
  | some standard =>
      simpa [typeDraft, isStandard] using (Standard.type?_eq_some isStandard).2
  | none =>
      cases outline with
      | standard standard =>
          rw [standard_of_outline given] at isStandard
          cases isStandard
      | _ => simp [typeDraft, isStandard]

/-- The drafts of described types have their names. -/
theorem map_name_typeDraft {outlines : List (DescribedType × Outline)}
    (made : ∀ outline ∈ outlines, ∃ value, Described.outline value = .ok outline) :
    (outlines.map fun (type, outline) =>
      typeDraft (outlines.map Prod.fst) type outline).map TypeDraft.name =
        (outlines.map Prod.fst).map DescribedType.name := by
  rw [List.map_map, List.map_map]
  refine List.map_congr_left fun outline mem => ?_
  obtain ⟨value, isOutline⟩ := made outline mem
  exact name_typeDraft isOutline

/-- The stages of an object or an interface refer to described types. -/
theorem listed_of_composite_stage {type : DescribedType} {names : List Text}
    (stage : .ok names ∈ [Described.interfaces types type,
      (Described.fields types type).map TypeDraft.fieldReferences]) :
    ∀ name ∈ names, name ∈ types.map DescribedType.name := by
  rcases List.mem_cons.mp stage with isInterfaces | isFields
  · exact listed_of_interfaces isInterfaces.symm
  · obtain ⟨fields, given, rfl⟩ := map_eq_ok_iff.mp (List.mem_singleton.mp isFields).symm
    exact listed_of_fields given

/-- Whatever stages the draft of a described type has that is not a standard one, they refer to
described types. -/
theorem listed_of_typeDraft {type : DescribedType} {outline : Outline}
    (notStandard : Standard.type? type.name = none)
    (ownOutline : ∀ standard, outline ≠ .standard standard) {names : List Text}
    (stage : .ok names ∈ (typeDraft types type outline).stages) :
    ∀ name ∈ names, name ∈ types.map DescribedType.name := by
  cases outline with
  | standard standard => exact absurd rfl (ownOutline standard)
  | scalar | enum => simp [typeDraft, notStandard, TypeDraft.stages] at stage
  | other description =>
      simp only [typeDraft, notStandard] at stage
      cases isKind : type.kind with
      | interface =>
          simp only [isKind] at stage
          exact listed_of_composite_stage stage
      | union =>
          simp only [isKind] at stage
          exact listed_of_members (List.mem_singleton.mp stage).symm
      | inputObject =>
          simp only [isKind] at stage
          obtain ⟨fields, given, rfl⟩ := map_eq_ok_iff.mp (List.mem_singleton.mp stage).symm
          exact List.forall_mem_map.mpr (listed_of_inputFields given)
      | scalar | object | enum =>
          simp only [isKind] at stage
          exact listed_of_composite_stage stage

/-- Whatever stages the draft of a described type has, they refer to described types, or to
standard ones. -/
theorem knows_of_typeDraft {value : Json} {type : DescribedType} {outline : Outline}
    (given : Described.outline value = .ok (type, outline)) {names : List Text}
    (stage : .ok names ∈ (typeDraft types type outline).stages) :
    ∀ name ∈ names, name ∈ types.map DescribedType.name ∨ (Standard.type? name).isSome := by
  intro name mem
  cases isStandard : Standard.type? type.name with
  | some standard =>
      simp only [typeDraft, isStandard] at stage
      exact .inr (Standard.references_standard (Standard.type?_eq_some isStandard).1
        (TypeDraft.mem_references_iff.mpr ⟨names, stage, mem⟩))
  | none =>
      refine .inl (listed_of_typeDraft isStandard ?_ stage name mem)
      rintro standard rfl
      rw [standard_of_outline given] at isStandard
      cases isStandard

end Described

/-- The schema that an introspection result describes is intact. -/
theorem ofIntrospection_intact {result : Json} {schema : Schema}
    (described : ofIntrospection result = .ok schema) : schema.Intact := by
  unfold ofIntrospection at described
  split at described
  case h_2 => cases described
  simp only [bind_eq_ok_iff] at described
  obtain ⟨listing, -, values, -, all, outlined, query, isQuery, mutation, isMutation,
    subscription, isSubscription, directives, isDirectives, _, -, _, -, assembled⟩ := described
  generalize isOutlines : Named.ofList (fun outline => outline.1.name) all = outlines at *
  have wereMade : ∀ outline ∈ outlines, ∃ value, Described.outline value = .ok outline := by
    intro outline mem
    obtain ⟨value, -, made⟩ := exists_of_mem_mapM outlined
      (Named.mem_of_mem_ofList (isOutlines ▸ mem))
    exact ⟨value, made⟩
  have sameNames := Described.map_name_typeDraft wereMade
  refine Draft.assemble_intact ⟨?_, ?_, ?_, ?_⟩ assembled
  · rw [sameNames, List.map_map, ← isOutlines]
    exact Named.nodup_ofList _ _
  · intro draft mem standard isStandard
    obtain ⟨⟨type, outline⟩, outlineMem, rfl⟩ := List.mem_map.mp mem
    obtain ⟨value, made⟩ := wereMade _ outlineMem
    rw [Described.name_typeDraft made] at isStandard
    simp [Described.typeDraft, isStandard]
  · intro draft mem names stage name nameMem
    obtain ⟨⟨type, outline⟩, outlineMem, rfl⟩ := List.mem_map.mp mem
    obtain ⟨value, made⟩ := wereMade _ outlineMem
    rw [Draft.Knows, sameNames]
    exact Described.knows_of_typeDraft made stage name nameMem
  · intro name mem
    rw [Draft.Knows, sameNames]
    exact .inl (Described.listed_of_ownReferences mem isQuery isMutation isSubscription
      isDirectives)

end SchemaOrder.Schema
