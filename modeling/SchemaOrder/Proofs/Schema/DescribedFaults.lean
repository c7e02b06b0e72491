import SchemaOrder.Proofs.Schema.ForeseenFaults
import SchemaOrder.Schema.OfIntrospection

/-!
# Faults of descriptions

A description in JSON is read without looking at its shape first. Whatever is wrong with it, the
fault can be foreseen, or the description lacks something that it was asked for. This is shown along
the functions that read a description.
-/

namespace SchemaOrder

open Outcome (FailsWithin)
open Outcome
open Schema

/-- A fault that can be foreseen, or something that a description in JSON does not have. -/
def SchemaFault.IsForeseenOrAccess (fault : SchemaFault) : Prop :=
  fault.IsForeseen ∨ ∃ access, fault = .introspection (.access access)

open SchemaFault (IsForeseen IsForeseenOrAccess isForeseen_unresolved)

namespace Schema

/-- What fails only in ways that can be foreseen. -/
theorem orAccess_of_foreseen {α : Type} {result : Except SchemaFault α}
    (fails : FailsWithin IsForeseen result) : FailsWithin IsForeseenOrAccess result :=
  fails.imp fun _ => .inl

namespace Described

variable {α : Type} (types : List DescribedType)

/-- What a value was asked for is there, or it is missing. -/
theorem ask_failsWithin (result : Except Json.AccessFault α) :
    FailsWithin IsForeseenOrAccess (ask result) :=
  .mapError fun access => .inr ⟨access, rfl⟩

/-- A fault of a description can be foreseen, unless something is missing. -/
theorem fault_failsWithin (fault : IntrospectionFault) :
    FailsWithin IsForeseenOrAccess (Described.fault fault : Except SchemaFault α) := by
  refine FailsWithin.error ?_
  cases fault with
  | access access => exact .inr ⟨access, rfl⟩
  | _ => exact .inl rfl

/-- A fault in a part of a type can be foreseen. -/
theorem within_failsWithin (owner : Text) (part : TypePart) (result : Except SchemaFault α) :
    FailsWithin IsForeseenOrAccess (within owner part result) :=
  .mapError fun fault => .inl (isForeseen_unresolved owner part fault)

/-- A name is admitted, or it is no name or no text at all. -/
theorem checkedName_failsWithin (value : Json) :
    FailsWithin IsForeseenOrAccess (checkedName value) := by
  unfold checkedName
  split
  · exact (orAccess_of_foreseen (checkName_failsWithin _)).bind fun _ => .ok _
  · exact fault_failsWithin _
  · exact fault_failsWithin _

/-- A text that may be left out is there, is left out, or is no text. -/
theorem optionalText_failsWithin (subject : Text) (value : Json) :
    FailsWithin IsForeseenOrAccess (optionalText subject value) := by
  unfold optionalText
  split
  · exact .ok _
  · exact .ok _
  · exact fault_failsWithin _

/-- A name stands for a type of a kind, or there is no such type in the description. -/
theorem kindOf_failsWithin (name : Json) :
    FailsWithin IsForeseenOrAccess (kindOf types name) := by
  refine (ask_failsWithin _).bind fun key => ?_
  split
  · split
    · exact .ok _
    · exact fault_failsWithin _
  · exact fault_failsWithin _

/-- A reference is read level by level. -/
theorem referenceWith_failsWithin (fuel : Nat) (value : Json) :
    FailsWithin IsForeseenOrAccess (referenceWith fuel types value) := by
  induction fuel generalizing value with
  | zero => exact fault_failsWithin _
  | succ fuel inductionHypothesis =>
      refine (ask_failsWithin _).bind fun kind => ?_
      split
      · refine (ask_failsWithin _).bind fun inner => ?_
        split
        · exact fault_failsWithin _
        · exact (inductionHypothesis inner).bind fun _ => .ok _
      · split
        · refine (ask_failsWithin _).bind fun inner => ?_
          split
          · exact fault_failsWithin _
          · refine (inductionHypothesis inner).bind fun reference => ?_
            split
            · exact fault_failsWithin _
            · exact .ok _
        · refine (ask_failsWithin _).bind fun name => ?_
          split
          · exact fault_failsWithin _
          · exact (kindOf_failsWithin types name).bind fun _ => .ok _

/-- A reference is read, however deep it goes, or it is refused. -/
theorem reference_failsWithin (value : Json) :
    FailsWithin IsForeseenOrAccess (reference types value) :=
  referenceWith_failsWithin types _ value

/-- A reference that has to be of a kind is of that kind, or it is refused. -/
theorem referenceOfKind_failsWithin (kind : TypeKind) (words : Text) (value : Json) :
    FailsWithin IsForeseenOrAccess (referenceOfKind types kind words value) := by
  refine (reference_failsWithin types value).bind fun reference => ?_
  split
  · refine (kindOf_failsWithin types _).bind fun found => ?_
    split
    · exact .ok _
    · exact fault_failsWithin _
  · exact fault_failsWithin _

/-- Parts are collected, unless one of them is not made. -/
theorem collect_failsWithin {make : Json → Except SchemaFault α}
    (makes : ∀ part, FailsWithin IsForeseenOrAccess (make part)) (value : Json) :
    FailsWithin IsForeseenOrAccess (collect make value) :=
  (ask_failsWithin _).bind fun elements => (FailsWithin.mapM (fun part =>
    (ask_failsWithin _).bind fun _ => (makes part).bind fun _ =>
      (ask_failsWithin _).bind fun _ => .ok _) elements).bind fun _ => .ok _

/-- The names of parts are checked one by one. -/
theorem checkedParts_failsWithin (parts : List (Json × α)) :
    FailsWithin IsForeseenOrAccess (checkedParts parts) := by
  refine FailsWithin.mapM (fun part => ?_) parts
  exact (checkedName_failsWithin part.1).bind fun _ => .ok _

/-- A default is no text, malformed, or does not fit its type. -/
theorem defaultValue_failsWithin {inputs : InputTypes SchemaFault}
    (fail : inputs.FailWithin IsForeseenOrAccess) (type : TypeReference) (value : Json) :
    FailsWithin IsForeseenOrAccess (defaultValue inputs type value) := by
  unfold defaultValue
  split
  · exact .ok _
  · split
    · exact .error (.inl rfl)
    · exact Coercion.coerce_failsWithin fail _ _
  · exact fault_failsWithin _

/-- An argument or an input field is made, or its type or its default is at fault. -/
theorem inputValue_failsWithin {inputs : InputTypes SchemaFault}
    (fail : inputs.FailWithin IsForeseenOrAccess) (place subject : Text) (value : Json) :
    FailsWithin IsForeseenOrAccess (inputValue inputs types place subject value) := by
  refine (ask_failsWithin _).bind fun member =>
    (reference_failsWithin types member).bind fun type =>
      (kindOf_failsWithin types _).bind fun kind => ?_
  split
  · exact fault_failsWithin _
  · exact (ask_failsWithin _).bind fun default =>
      (defaultValue_failsWithin fail type default).bind fun _ =>
        (ask_failsWithin _).bind fun _ => (ask_failsWithin _).bind fun _ =>
          (optionalText_failsWithin _ _).bind fun _ =>
            (optionalText_failsWithin _ _).bind fun _ => .ok _

/-- The fields of an input object are made, or one of them is at fault. -/
theorem inputFields_failsWithin (inputs : InputTypes SchemaFault) (type : DescribedType) :
    FailsWithin IsForeseenOrAccess (inputFields inputs types type) := by
  refine (within_failsWithin _ _ _).bind fun parts => ?_
  split
  · exact fault_failsWithin _
  · exact (checkedParts_failsWithin parts).bind fun _ => .ok _

/-- The fields of an input object are looked at with the fuel that there is at the start. -/
theorem inputTypes_failWithin : (inputTypes types).FailWithin IsForeseenOrAccess where
  notInput _ := .inl rfl
  fields := by
    intro name fields isOneOf isShape
    have shape : inputShape (types.length + 1) types name =
        .inputObject fields isOneOf := isShape
    unfold inputShape at shape
    split at shape
    · split at shape <;> cases shape
    · split at shape
      · cases shape
      · split at shape <;> cases shape
        exact inputFields_failsWithin types _ _

/-- Arguments are made, or one of them is at fault. -/
theorem arguments_failsWithin (value : Json) :
    FailsWithin IsForeseenOrAccess (arguments types value) :=
  collect_failsWithin
    (inputValue_failsWithin types (inputTypes_failWithin types) "arguments" "Argument") value

/-- The fields of an object or an interface are made, or one of them is at fault. -/
theorem fields_failsWithin (type : DescribedType) :
    FailsWithin IsForeseenOrAccess (fields types type) := by
  refine (within_failsWithin _ _ _).bind fun parts => ?_
  split
  · exact fault_failsWithin _
  · exact (checkedParts_failsWithin parts).bind fun _ => .ok _

/-- A value of an enum is made of what is said of it, unless something is missing. -/
theorem enumValue_failsWithin (value : Json) :
    FailsWithin IsForeseenOrAccess (enumValue value) :=
  (ask_failsWithin _).bind fun _ => (ask_failsWithin _).bind fun _ =>
    (ask_failsWithin _).bind fun _ => (optionalText_failsWithin _ _).bind fun _ =>
      (optionalText_failsWithin _ _).bind fun _ => .ok _

/-- The names of enum values are checked one by one, as names and as values. -/
theorem namedValues_failsWithin (parts : List (Json × EnumValue)) :
    FailsWithin IsForeseenOrAccess (namedValues parts) := by
  refine FailsWithin.mapM (fun part => ?_) parts
  exact (checkedName_failsWithin part.1).bind fun checked =>
    (orAccess_of_foreseen (checkEnumValueName_failsWithin checked)).bind fun _ => .ok _

/-- A type that is no standard one has a name that is free and admitted, or a fault. -/
theorem unreservedName_failsWithin (name : Json) :
    FailsWithin IsForeseenOrAccess (unreservedName name) := by
  refine (ask_failsWithin _).bind fun key => ?_
  split
  · split
    · exact .error (.inl rfl)
    · exact checkedName_failsWithin name
  · exact checkedName_failsWithin _

/-- What all types have is made: the name and the description. -/
theorem heading_failsWithin (name description : Json) :
    FailsWithin IsForeseenOrAccess (heading name description) :=
  (checkedName_failsWithin name).bind fun _ =>
    (optionalText_failsWithin _ description).bind fun _ => .ok _

/-- Whether a name is that of a standard type can be told, unless it is no text. -/
theorem standard?_failsWithin (name : Json) :
    FailsWithin IsForeseenOrAccess (standard? name) := by
  refine (ask_failsWithin _).bind fun key => ?_
  split <;> exact .ok _

/-- A scalar is made, or its address is neither a text nor left out. -/
theorem scalarOutline_failsWithin (name value : Json) :
    FailsWithin IsForeseenOrAccess (scalarOutline name value) := by
  refine (standard?_failsWithin name).bind fun standard => ?_
  split
  · exact .ok _
  · refine (ask_failsWithin _).bind fun description => (ask_failsWithin _).bind fun address =>
      (heading_failsWithin name description).bind fun heading => ?_
    obtain ⟨name, description⟩ := heading
    dsimp only
    split
    · exact .ok _
    · exact .ok _
    · exact fault_failsWithin _

/-- An enum is made, or one of its values is at fault. -/
theorem enumOutline_failsWithin (name value : Json) :
    FailsWithin IsForeseenOrAccess (enumOutline name value) := by
  refine (ask_failsWithin _).bind fun values => ?_
  split
  · exact fault_failsWithin _
  · refine (standard?_failsWithin name).bind fun standard => ?_
    split
    · exact .ok _
    · exact (ask_failsWithin _).bind fun description =>
        (collect_failsWithin enumValue_failsWithin values).bind fun parts =>
          (heading_failsWithin name description).bind fun _ =>
            (namedValues_failsWithin parts).bind fun _ => .ok _

/-- An object is made without its parts, which are worked out when it is collected. -/
theorem objectOutline_failsWithin (name value : Json) :
    FailsWithin IsForeseenOrAccess (objectOutline name value) := by
  refine (standard?_failsWithin name).bind fun standard => ?_
  split
  · exact .ok _
  · exact (ask_failsWithin _).bind fun description =>
      (heading_failsWithin name description).bind fun _ => .ok _

/-- So are interfaces, unions and input objects, and some have to say what their parts are. -/
theorem compositeOutline_failsWithin (part : Option Text) (name value : Json) :
    FailsWithin IsForeseenOrAccess (compositeOutline part name value) := by
  have rest : FailsWithin IsForeseenOrAccess (do
      let description ← ask (value.lookup "description")
      let unreserved ← unreservedName name
      pure (unreserved, Outline.other (← optionalText "The description" description))) :=
    (ask_failsWithin _).bind fun _ => (unreservedName_failsWithin name).bind fun _ =>
      (optionalText_failsWithin _ _).bind fun _ => .ok _
  unfold compositeOutline
  split
  · refine (ask_failsWithin _).bind fun found => ?_
    dsimp only
    split
    · exact (fault_failsWithin _).bind fun _ => rest
    · exact rest
  · exact rest

/-- A type is outlined, whatever kind it is of. -/
theorem outlineOfKind_failsWithin (kind : TypeKind) (name value : Json) :
    FailsWithin IsForeseenOrAccess (outlineOfKind kind name value) := by
  cases kind with
  | scalar => exact scalarOutline_failsWithin name value
  | object => exact objectOutline_failsWithin name value
  | «enum» => exact enumOutline_failsWithin name value
  | interface => exact compositeOutline_failsWithin none name value
  | union => exact compositeOutline_failsWithin (some "possibleTypes") name value
  | inputObject => exact compositeOutline_failsWithin (some "inputFields") name value

/-- A type is outlined, or it says neither its name nor its kind. -/
theorem outline_failsWithin (value : Json) :
    FailsWithin IsForeseenOrAccess (outline value) := by
  refine (ask_failsWithin _).bind fun name => ?_
  split
  · exact fault_failsWithin _
  · refine (ask_failsWithin _).bind fun word => ?_
    split
    · exact fault_failsWithin _
    · exact (outlineOfKind_failsWithin _ name value).bind fun _ => .ok _

/-- The parts of a type are worked out when it is collected, and fail like the others. -/
theorem typeDraft_failsWithin (type : DescribedType) (outline : Outline) :
    (typeDraft types type outline).body.FailWithin IsForeseenOrAccess := by
  unfold typeDraft
  split
  · exact TypeDraft.failWithin_ofType _
  · exact TypeDraft.failWithin_ofType _
  · exact trivial
  · exact trivial
  · dsimp only
    split
    · exact ⟨within_failsWithin _ _ _, fields_failsWithin types type⟩
    · exact within_failsWithin _ _ _
    · exact inputFields_failsWithin types _ type
    · exact ⟨within_failsWithin _ _ _, fields_failsWithin types type⟩

/-- The locations of a directive are known words, or they are refused. -/
theorem locations_failsWithin (owner : Text) (values : List Json) :
    FailsWithin IsForeseenOrAccess (locations owner values) := by
  refine FailsWithin.mapM (fun value => ?_) values
  split
  · split
    · exact .ok _
    · exact fault_failsWithin _
  · exact fault_failsWithin _

/-- A directive is made, or it says too little, or one of its arguments is at fault. -/
theorem directive_failsWithin (value : Json) :
    FailsWithin IsForeseenOrAccess (directive types value) := by
  refine (ask_failsWithin _).bind fun arguments? => ?_
  split
  · exact fault_failsWithin _
  · refine (ask_failsWithin _).bind fun locations? => ?_
    split
    · exact fault_failsWithin _
    · refine (ask_failsWithin _).bind fun name => (ask_failsWithin _).bind fun _ =>
        (ask_failsWithin _).bind fun _ => (ask_failsWithin _).bind fun places =>
          (arguments_failsWithin types arguments?).bind fun _ =>
            (checkedName_failsWithin name).bind fun name =>
              (locations_failsWithin name places).bind fun _ => ?_
      split
      · exact fault_failsWithin _
      · refine (checkedParts_failsWithin _).bind fun _ => ?_
        split
        · exact (optionalText_failsWithin _ _).bind fun _ =>
            (optionalText_failsWithin _ _).bind fun _ => .ok _
        · exact fault_failsWithin _

/-- An operation is an object that is described, is left out, or is refused. -/
theorem root_failsWithin (schema : Json) (name : Text) :
    FailsWithin IsForeseenOrAccess (root types schema name) := by
  refine (ask_failsWithin _).bind fun value => ?_
  split
  · exact .ok _
  · exact (referenceOfKind_failsWithin types _ _ value).bind fun _ => .ok _

/-- The directives are made one by one, or they are left out. -/
theorem directives_failsWithin (schema : Json) :
    FailsWithin IsForeseenOrAccess (directives types schema) := by
  refine (ask_failsWithin _).bind fun value => ?_
  split
  · exact .ok _
  · exact (ask_failsWithin _).bind fun elements =>
      .mapM (directive_failsWithin types) elements

end Described

/-- A description makes a schema, or the fault can be foreseen, or something is missing. -/
theorem ofIntrospection_failsWithin (result : Json) :
    FailsWithin IsForeseenOrAccess (ofIntrospection result) := by
  unfold ofIntrospection
  split
  · refine (Described.ask_failsWithin _).bind fun described =>
      (Described.ask_failsWithin _).bind fun elements =>
        (FailsWithin.mapM Described.outline_failsWithin elements).bind fun outlines =>
          (Described.root_failsWithin _ _ _).bind fun _ =>
            (Described.root_failsWithin _ _ _).bind fun _ =>
              (Described.root_failsWithin _ _ _).bind fun _ =>
                (Described.directives_failsWithin _ _).bind fun _ =>
                  (Described.ask_failsWithin _).bind fun _ =>
                    (Described.optionalText_failsWithin _ _).bind fun _ =>
                      Draft.assemble_failsWithin fun draft mem => ?_
    obtain ⟨entry, -, rfl⟩ := List.mem_map.mp mem
    exact Described.typeDraft_failsWithin _ entry.1 entry.2
  · exact Described.fault_failsWithin _

end Schema

end SchemaOrder
