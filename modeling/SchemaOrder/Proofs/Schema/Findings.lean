import SchemaOrder.Order.Check
import SchemaOrder.Order.Sort
import SchemaOrder.Proofs.Outcome
import SchemaOrder.Schema.Fingerprint
import SchemaOrder.Schema.Introspection

/-!
# What validation leaves behind

A schema that was validated keeps the messages. Nothing that is written, checked or described
reads them but the description, which fails where there are any. Sorting reads only whether
there are messages at all: the sorted copy of a schema that was validated counts as valid,
whatever was found.
-/

namespace SchemaOrder.Schema

open Outcome (FailsWithin)

variable {schema : Schema} {findings : Option (List Text)}

/-- The schema with other findings of validation kept beside it. -/
def withFindings (findings : Option (List Text)) (schema : Schema) : Schema :=
  { schema with validation := findings }

/-- A value that is no part of another one is written in the same way. -/
theorem leafLiteral_withFindings (name : Text) (value : Value) :
    (schema.withFindings findings).leafLiteral name value = schema.leafLiteral name value :=
  rfl

mutual

/-- A value is written in the same way. -/
theorem defaultLiteral_withFindings : ∀ (value : Value) (type : TypeReference),
    (schema.withFindings findings).defaultLiteral value type = schema.defaultLiteral value type
  | .null, _ | .unbound, _ | .boolean _, _ | .integer _, _ | .float _, _ | .text _, _ => by
      simp only [defaultLiteral, leafLiteral_withFindings]
  | .list items, type => by
      simp only [defaultLiteral, leafLiteral_withFindings, itemLiterals_withFindings items]
  | .object fields, type => by
      simp only [defaultLiteral, leafLiteral_withFindings, heldFields_withFindings fields]
      rfl

/-- The items of a list are written in the same way. -/
theorem itemLiterals_withFindings : ∀ (items : List Value) (type : TypeReference),
    (schema.withFindings findings).itemLiterals items type = schema.itemLiterals items type
  | [], _ => by simp only [itemLiterals]
  | item :: rest, type => by
      simp only [itemLiterals, defaultLiteral_withFindings item, itemLiterals_withFindings rest]

/-- The fields of an object are written in the same way. -/
theorem heldFields_withFindings : ∀ fields : List (Text × Value),
    (schema.withFindings findings).heldFields fields = schema.heldFields fields
  | [] => by simp only [heldFields]
  | (name, value) :: rest => by
      simp only [heldFields, heldFields_withFindings rest]
      congr 2
      exact funext fun type => defaultLiteral_withFindings value type

end

/-- The default of an argument or an input field is written in the same way. -/
theorem defaultText_withFindings :
    (schema.withFindings findings).defaultText = schema.defaultText := by
  funext input
  simp only [defaultText, defaultLiteral_withFindings]

/-- An argument is written without a look at the findings. -/
theorem writeInput_withFindings :
    (schema.withFindings findings).writeInput = schema.writeInput := by
  funext input
  simp only [writeInput, defaultText_withFindings]

/-- So is one on a line of its own. -/
theorem writeInputLine_withFindings :
    (schema.withFindings findings).writeInputLine = schema.writeInputLine := by
  funext indentation isFirst input
  simp only [writeInputLine, writeInput_withFindings]

/-- So are arguments together. -/
theorem writeArguments_withFindings :
    (schema.withFindings findings).writeArguments = schema.writeArguments := by
  funext indentation arguments
  simp only [writeArguments, writeInput_withFindings, writeInputLine_withFindings]

/-- So is a field. -/
theorem writeField_withFindings :
    (schema.withFindings findings).writeField = schema.writeField := by
  funext isFirst field
  simp only [writeField, writeArguments_withFindings]

/-- So is a type. -/
theorem writeEntry_withFindings :
    (schema.withFindings findings).writeEntry = schema.writeEntry := by
  funext entry
  simp only [writeEntry, writeType, writeBody, writeField_withFindings, writeInputLine_withFindings]

/-- So is a directive. -/
theorem writeDirective_withFindings :
    (schema.withFindings findings).writeDirective = schema.writeDirective := by
  funext directive
  simp only [writeDirective, writeArguments_withFindings]

/-- A schema is the same document. -/
theorem print_withFindings : (schema.withFindings findings).print = schema.print := by
  simp only [print, writeDirective_withFindings, writeEntry_withFindings]
  rfl

/-- The levels inside a reference are described in the same way. -/
theorem inside_withFindings (remaining : Nat) (type : TypeReference) :
    Describe.inside (schema.withFindings findings) remaining type =
      Describe.inside schema remaining type := by
  induction remaining generalizing type with
  | zero => cases type <;> rfl
  | succ remaining inductionHypothesis =>
      cases type with
      | named name => rfl
      | list inner | nonNull inner =>
          simp only [Describe.inside, inductionHypothesis]
          rfl

/-- A reference is described without a look at the findings. -/
theorem reference_withFindings :
    Describe.reference (schema.withFindings findings) = Describe.reference schema := by
  funext type
  simp only [Describe.reference, inside_withFindings]
  rfl

/-- So are arguments and input fields. -/
theorem inputValues_withFindings :
    Describe.inputValues (schema.withFindings findings) = Describe.inputValues schema := by
  have each : Describe.inputValue (schema.withFindings findings) = Describe.inputValue schema := by
    funext input
    simp only [Describe.inputValue, defaultText_withFindings, reference_withFindings]
  funext inputs
  simp only [Describe.inputValues, each]

/-- So are fields. -/
theorem fields_withFindings :
    Describe.fields (schema.withFindings findings) = Describe.fields schema := by
  have each : Describe.field (schema.withFindings findings) = Describe.field schema := by
    funext field
    simp only [Describe.field, inputValues_withFindings, reference_withFindings]
  funext fields
  simp only [Describe.fields, each]

/-- So is a type. -/
theorem namedType_withFindings :
    Describe.namedType (schema.withFindings findings) = Describe.namedType schema := by
  have names : Describe.names (schema.withFindings findings) = Describe.names schema := by
    funext listed
    simp only [Describe.names, reference_withFindings]
  have possible : Describe.possibleTypes (schema.withFindings findings) =
      Describe.possibleTypes schema := by
    funext type
    simp only [Describe.possibleTypes, names]
    rfl
  funext type isOneOf
  simp only [Describe.namedType, names, possible, fields_withFindings, inputValues_withFindings]

/-- So is a directive. -/
theorem directive_withFindings :
    Describe.directive (schema.withFindings findings) = Describe.directive schema := by
  funext directive
  simp only [Describe.directive, inputValues_withFindings]

/-- Schemas of which validation says the same have the same description. -/
theorem introspection_withFindings
    (sameMessages : (schema.withFindings findings).validationMessages =
      schema.validationMessages) :
    (schema.withFindings findings).introspection = schema.introspection := by
  unfold introspection
  rw [sameMessages, namedType_withFindings, directive_withFindings]
  rfl

/-- Whether a fault is another one than that rules are broken. -/
def DescriptionFault.OfParts (fault : DescriptionFault) : Prop :=
  ∀ messages, fault ≠ .invalid messages

/-- Describing arguments or input fields never fails because of broken rules. -/
theorem inputValues_failsWithin (inputs : List InputValue) :
    FailsWithin DescriptionFault.OfParts (Describe.inputValues schema inputs) := by
  have each : ∀ input, FailsWithin DescriptionFault.OfParts (Describe.inputValue schema input) :=
    fun input => (FailsWithin.mapError fun _ => nofun).bind fun _ => .ok _
  exact (FailsWithin.mapM each inputs).bind fun _ => .ok _

/-- Describing fields never fails because of broken rules. -/
theorem fields_failsWithin (fields : List Field) :
    FailsWithin DescriptionFault.OfParts (Describe.fields schema fields) := by
  have each : ∀ field, FailsWithin DescriptionFault.OfParts (Describe.field schema field) :=
    fun field => (inputValues_failsWithin field.arguments).bind fun _ => .ok _
  exact (FailsWithin.mapM each fields).bind fun _ => .ok _

/-- Describing a type never fails because of broken rules. -/
theorem namedType_failsWithin (type : NamedType) (isOneOf : Json) :
    FailsWithin DescriptionFault.OfParts (Describe.namedType schema type isOneOf) := by
  obtain ⟨name, description, body⟩ := type
  cases body with
  | scalar | union | enum => exact .ok _
  | object interfaces fields | interface interfaces fields =>
      exact (fields_failsWithin fields).bind fun _ => .ok _
  | inputObject fields => exact (inputValues_failsWithin fields).bind fun _ => .ok _

/-- Asking how many fields are given never fails because of broken rules. -/
theorem oneOf_failsWithin (type : NamedType) :
    FailsWithin DescriptionFault.OfParts (Describe.oneOf type) := by
  unfold Describe.oneOf
  split
  case h_4 =>
    split
    · exact .ok _
    · exact .error nofun
  case h_5 => exact .error nofun
  all_goals exact .ok _

/-- A description fails because of broken rules exactly where validation has messages. -/
theorem introspection_eq_invalid_iff {messages : List Text} :
    schema.introspection = .error (.invalid messages) ↔
      schema.validationMessages = messages ∧ messages ≠ [] := by
  have entries : ∀ entry, FailsWithin DescriptionFault.OfParts (Describe.typeOf entry) := by
    intro entry
    cases entry with
    | defined type => exact .ok type
    | kindless name => exact .error nofun
  have directives : ∀ directive,
      FailsWithin DescriptionFault.OfParts (Describe.directive schema directive) :=
    fun directive => (inputValues_failsWithin directive.arguments).bind fun _ => .ok _
  by_cases silent : schema.validationMessages = []
  · have parts : FailsWithin DescriptionFault.OfParts schema.introspection := by
      unfold introspection
      simp only [silent, List.isEmpty_nil, Bool.not_true, Bool.false_eq_true, if_false]
      split
      · exact .error nofun
      · exact (FailsWithin.mapM entries _).bind fun indexed =>
          (FailsWithin.mapM oneOf_failsWithin indexed).bind fun flags =>
            (FailsWithin.mapM directives _).bind fun _ =>
              (FailsWithin.mapM (fun _ => namedType_failsWithin _ _) _).bind fun _ => .ok _
    constructor
    · exact fun fails => absurd rfl (parts _ fails messages)
    · rintro ⟨rfl, broken⟩
      exact absurd silent broken
  · have fails : schema.introspection = .error (.invalid schema.validationMessages) := by
      unfold introspection
      exact if_pos (by simpa using silent)
    rw [fails]
    constructor
    · rintro ⟨⟩
      exact ⟨rfl, silent⟩
    · rintro ⟨rfl, -⟩
      rfl

/-- The draft of a sorted copy is taken to be valid exactly where there are findings. -/
theorem sortedDraft_withFindings {order : NameOrder} :
    Sorter.sortedDraft order (schema.withFindings findings) =
      (Sorter.sortedDraft order schema).map fun draft =>
        { draft with isTrusted := findings.isSome } := by
  simp only [Sorter.sortedDraft, Outcome.map_bind]
  rfl

/-- Whether a draft is taken to be valid shows in the findings of its schema alone. -/
theorem construct_isTrusted {ε : Type} {repeated : Text → ε} (draft : ObjectDraft ε)
    (isTrusted : Bool) :
    ({ draft with isTrusted } : ObjectDraft ε).construct repeated =
      (draft.construct repeated).map (withFindings (if isTrusted then some [] else none)) := by
  have sameCollection : ({ draft with isTrusted } : ObjectDraft ε).collect = draft.collect := rfl
  unfold ObjectDraft.construct
  rw [sameCollection, Outcome.map_bind]
  congr 1
  funext objects
  cases Named.repeated? (objects.map TypeObject.name) with
  | some name => rfl
  | none =>
      dsimp only
      rw [Outcome.map_bind]
      rfl

/-- Sorting replaces findings, whatever they are, by the finding that nothing is wrong. -/
theorem sort_withFindings (findings : Option (List Text)) (order : NameOrder) (schema : Schema) :
    (schema.withFindings findings).sort order =
      (schema.sort order).map (withFindings (findings.map fun _ => [])) := by
  have found : (if findings.isSome then some [] else none) =
      findings.map fun _ => ([] : List Text) := by
    cases findings <;> rfl
  unfold sort
  rw [sortedDraft_withFindings, Outcome.map_bind]
  cases Sorter.sortedDraft order schema with
  | error fault => rfl
  | ok draft => exact (construct_isTrusted draft findings.isSome).trans (by rw [found]; rfl)

/-- A sorted copy counts as valid exactly where validation was done or dispensed with. -/
theorem validation_sort {order : NameOrder} {sorted : Schema}
    (sorts : schema.sort order = .ok sorted) :
    sorted.validation = schema.validation.map fun _ => [] := by
  have same := sort_withFindings schema.validation order schema
  rw [show schema.withFindings schema.validation = schema from rfl, sorts] at same
  exact congrArg validation (Except.ok.inj same)

end SchemaOrder.Schema
