import Mathlib.Data.List.Nodup
import SchemaOrder.Document.Rules

/-!
# What inspecting a document finds

No inspection takes a breach back, and only the definition of a type adds to the names of types that
were seen. So a document without breaches defines every type once, and what extends a type is of its
kind.
-/

namespace SchemaOrder.Document

namespace Inspection

/-- An inspection that leaves the names of types alone and takes no breach back. -/
structure Watches (inspection : Inspection) : Prop where
  types : ∀ progress, (inspection.run progress).2.types = progress.types
  breaches : ∀ progress, progress.breaches <:+ (inspection.run progress).2.breaches

namespace Watches

/-- To look at nothing watches. -/
theorem pure : Watches (Pure.pure ()) :=
  ⟨fun _ => rfl, fun progress => List.suffix_refl progress.breaches⟩

/-- To report a breach watches: a breach is added, and none is taken back. -/
theorem report (breach : Breach) : Watches (Inspection.report breach) :=
  ⟨fun _ => rfl, fun progress => List.suffix_cons breach progress.breaches⟩

/-- Something else is remembered. -/
theorem remember {change : Progress → Progress}
    (types : ∀ progress, (change progress).types = progress.types)
    (breaches : ∀ progress, (change progress).breaches = progress.breaches) :
    Watches (modify change) :=
  ⟨types, fun progress => (breaches progress).symm ▸ List.suffix_refl progress.breaches⟩

/-- One inspection after the other. -/
theorem andThen {first : Inspection} {next : PUnit → Inspection} (watches : Watches first)
    (further : ∀ done, Watches (next done)) : Watches (first >>= next) :=
  ⟨fun progress => ((further _).types _).trans (watches.types progress),
    fun progress => (watches.breaches progress).trans ((further _).breaches _)⟩

/-- An inspection that depends on what was seen before. -/
theorem ofGet {next : Progress → Inspection} (watches : ∀ seen, Watches (next seen)) :
    Watches (get >>= next) :=
  ⟨fun progress => (watches progress).types progress,
    fun progress => (watches progress).breaches progress⟩

/-- One inspection or the other. -/
theorem ite {condition : Prop} [Decidable condition] {first second : Inspection}
    (watches : Watches first) (otherwise : Watches second) :
    Watches (if condition then first else second) := by
  split
  · exact watches
  · exact otherwise

/-- What is remembered when it comes up for the first time, and is a breach after that. -/
theorem once {isKnown : Progress → Bool} {breach : Breach} {change : Progress → Progress}
    (types : ∀ progress, (change progress).types = progress.types)
    (breaches : ∀ progress, (change progress).breaches = progress.breaches) :
    Watches (do if isKnown (← get) then Inspection.report breach else modify change) :=
  ofGet fun _ => ite (report breach) (remember types breaches)

/-- An inspection of one thing after the other. -/
theorem forM {α : Type} {inspect : α → Inspection} (each : ∀ thing, Watches (inspect thing))
    (things : List α) : Watches (things.forM inspect) := by
  induction things with
  | nil => exact pure
  | cons head tail inductionHypothesis => exact (each head).andThen fun _ => inductionHypothesis

end Watches

variable (overview : Overview)

/-- To look up the name of a type only reports. -/
theorem typeName_watches (isInSchema : Bool) (name : Text) :
    Watches (typeName overview isInSchema name) :=
  .ite .pure (.report _)

mutual

/-- To look at a literal only reports fields that stand twice in an object. -/
theorem literal_watches : ∀ value, Watches (literal value)
  | .list items => literals_watches items
  | .object fields => objectFields_watches [] fields
  | .variable _ | .integer _ | .float _ | .text .. | .boolean _ | .null | .enumValue _ => .pure

/-- To look at several literals watches. -/
theorem literals_watches : ∀ items, Watches (literals items)
  | [] => .pure
  | item :: rest => (literal_watches item).andThen fun _ => literals_watches rest

/-- To look at the fields of an object watches. -/
theorem objectFields_watches : ∀ seen fields, Watches (objectFields seen fields)
  | _, [] => .pure
  | _, (_, value) :: rest =>
    .andThen (.ite (.report _) .pure) fun _ =>
      (literal_watches value).andThen fun _ => objectFields_watches _ rest

end

/-- To look at a directive that is applied watches: whether it is known, where it stands, and what
arguments it has. -/
theorem directive_watches (location : Text) (applied : Directive) :
    Watches (directive overview location applied) := by
  have values : Watches (argumentValues applied.arguments) :=
    .forM (fun argument : Argument => literal_watches argument.value) applied.arguments
  have repeated : Watches (repeatedArguments applied.arguments) := .forM (fun _ => .report _) _
  unfold directive
  dsimp only
  split
  · exact (Watches.report _).andThen fun _ => repeated.andThen fun _ => values.andThen fun _ =>
      .pure
  · next rule _ =>
      have known : Watches (applied.arguments.forM fun argument =>
          if rule.arguments.contains argument.name then Pure.pure ()
          else report (.unknownArgument applied.name argument.name
            (Text.suggestions argument.name rule.arguments))) :=
        .forM (fun _ => .ite .pure (.report _)) _
      have given : Watches (rule.required.forM fun entry =>
          if applied.arguments.any fun argument => argument.name = entry.1 then Pure.pure ()
          else report (.missingArgument applied.name entry.1 entry.2)) :=
        .forM (fun _ => .ite .pure (.report _)) _
      have others := known.andThen fun _ => repeated.andThen fun _ => values.andThen fun _ => given
      exact .ite others ((Watches.report _).andThen fun _ => others)

/-- To look at several of them watches. -/
theorem directives_watches (location : Text) (applied : List Directive) :
    Watches (directives overview location applied) :=
  .forM (directive_watches overview location) applied

/-- To look for directives that stand twice in one place watches. -/
theorem uniqueHere_watches (applied : List Directive) : Watches (uniqueHere overview applied) := by
  have along : ∀ names seen, Watches (uniqueHere.go seen names) := by
    intro names
    induction names with
    | nil => exact fun _ => .pure
    | cons name rest inductionHypothesis =>
        intro seen
        unfold uniqueHere.go
        split
        · exact (Watches.report _).andThen fun _ => inductionHypothesis _
        · exact inductionHypothesis _
  exact along _ []

/-- To look for those that stand twice on the schema remembers directives only. -/
theorem uniqueOnSchema_watches (applied : List Directive) :
    Watches (uniqueOnSchema overview applied) := by
  refine Watches.forM (fun name => ?_) _
  exact .once (fun _ => rfl) fun _ => rfl

/-- To look for those that stand twice on a type remembers directives only. -/
theorem uniqueOnType_watches (type : Text) (applied : List Directive) :
    Watches (uniqueOnType overview type applied) := by
  refine Watches.forM (fun name => ?_) _
  exact .once (fun _ => rfl) fun _ => rfl

/-- To look at a default watches. -/
theorem defaultLiteral_watches (default? : Option Literal) : Watches (defaultLiteral default?) := by
  cases default? with
  | none => exact .pure
  | some value => exact literal_watches value

/-- To look at the definition of an argument or an input field watches. -/
theorem inputValue_watches (location : Text) (definition : InputValueDefinition) :
    Watches (inputValue overview location definition) :=
  (uniqueHere_watches overview _).andThen fun _ =>
    (typeName_watches overview true _).andThen fun _ =>
      (defaultLiteral_watches _).andThen fun _ => directives_watches overview location _

/-- To look at several of these watches. -/
theorem argumentDefinitions_watches (arguments : List InputValueDefinition) :
    Watches (argumentDefinitions overview arguments) :=
  .forM (inputValue_watches overview _) arguments

/-- To look at the definition of a field watches. -/
theorem fieldDefinition_watches (definition : FieldDefinition) :
    Watches (fieldDefinition overview definition) :=
  (uniqueHere_watches overview _).andThen fun _ =>
    (argumentDefinitions_watches overview _).andThen fun _ =>
      (typeName_watches overview true _).andThen fun _ => directives_watches overview _ _

/-- To look at the definition of a value of an enum watches. -/
theorem enumValueDefinition_watches (definition : EnumValueDefinition) :
    Watches (enumValueDefinition overview definition) :=
  (uniqueHere_watches overview _).andThen fun _ => directives_watches overview _ _

/-- To look for fields that a type has twice remembers fields only. -/
theorem uniqueFields_watches (type : Text) (names : List Text) :
    Watches (uniqueFields type names) := by
  refine Watches.forM (fun name => ?_) _
  exact .once (fun _ => rfl) fun _ => rfl

/-- To look for arguments that are defined twice only reports. -/
theorem uniqueArguments_watches (owner : Text) (arguments : List InputValueDefinition) :
    Watches (uniqueArguments owner arguments) :=
  .forM (fun _ => .report _) _

/-- To look for fields or values that a type has twice watches, whatever its kind. -/
theorem uniqueMembers_watches (definition : TypeDefinition) :
    Watches (uniqueMembers definition) := by
  have fields (fields : List FieldDefinition) : Watches (do
      uniqueFields definition.name (fields.map FieldDefinition.name)
      fields.forM fun field =>
        uniqueArguments (definition.name ++ "." ++ field.name) field.arguments) :=
    (uniqueFields_watches _ _).andThen fun _ => .forM (fun _ => uniqueArguments_watches _ _) _
  unfold uniqueMembers
  split
  · refine Watches.forM (fun value => ?_) _
    exact .once (fun _ => rfl) fun _ => rfl
  · exact fields _
  · exact fields _
  · exact uniqueFields_watches _ _
  · exact .pure

/-- To look at the parts of a type watches, whatever its kind. -/
theorem typeParts_watches (location : Text) (definition : TypeDefinition) :
    Watches (typeParts overview location definition) := by
  have applied (location : Text) : Watches (directives overview location definition.directives) :=
    directives_watches overview location _
  have names (names : List Text) : Watches (names.forM (typeName overview true)) :=
    .forM (typeName_watches overview true) names
  have fields (fields : List FieldDefinition) : Watches (fields.forM (fieldDefinition overview)) :=
    .forM (fieldDefinition_watches overview) fields
  unfold typeParts
  dsimp only
  split
  · exact applied _
  · exact (names _).andThen fun _ => (applied _).andThen fun _ => fields _
  · exact (names _).andThen fun _ => (applied _).andThen fun _ => fields _
  · exact (applied _).andThen fun _ => names _
  · exact (applied _).andThen fun _ => .forM (enumValueDefinition_watches overview) _
  · exact (applied _).andThen fun _ => .forM (inputValue_watches overview location) _

/-- To look at what an extension extends only reports. -/
theorem extensionTarget_watches (definition : TypeDefinition) :
    Watches (extensionTarget overview definition) := by
  unfold extensionTarget
  split
  · exact .ite .pure (.report _)
  · exact .report _

/-- To look at the definition of a schema remembers operations and directives only. -/
theorem schemaParts_watches (definition : SchemaDefinition) :
    Watches (schemaParts overview definition) := by
  have operations : Watches (uniqueOperations definition.operations) := by
    refine Watches.forM (fun operation => ?_) _
    exact .once (fun _ => rfl) fun _ => rfl
  exact operations.andThen fun _ => (uniqueOnSchema_watches overview _).andThen fun _ =>
    (directives_watches overview _ _).andThen fun _ =>
      .forM (fun _ => typeName_watches overview true _) _

mutual

/-- To look at what an operation selects watches. -/
theorem selection_watches : ∀ inner, Watches (selection overview inner)
  | .field _ _ arguments applied inner =>
    (uniqueHere_watches overview applied).andThen fun _ =>
      .andThen (.forM (fun _ => .report _) _) fun _ =>
        .andThen (.forM (fun argument : Argument => literal_watches argument.value) arguments)
          fun _ => (directives_watches overview _ applied).andThen fun _ => selections_watches inner
  | .spread _ applied =>
    (uniqueHere_watches overview applied).andThen fun _ => directives_watches overview _ applied
  | .inline none applied inner =>
    (uniqueHere_watches overview applied).andThen fun _ =>
      (directives_watches overview _ applied).andThen fun _ => selections_watches inner
  | .inline (some name) applied inner =>
    (uniqueHere_watches overview applied).andThen fun _ =>
      (typeName_watches overview false name).andThen fun _ =>
        (directives_watches overview _ applied).andThen fun _ => selections_watches inner

/-- To look at all that it selects in braces watches. -/
theorem selections_watches : ∀ inner, Watches (selections overview inner)
  | [] => .pure
  | first :: rest => (selection_watches first).andThen fun _ => selections_watches rest

end

/-- To look at a variable of an operation watches. -/
theorem variableDefinition_watches (definition : VariableDefinition) :
    Watches (variableDefinition overview definition) :=
  (uniqueHere_watches overview _).andThen fun _ =>
    (typeName_watches overview false _).andThen fun _ =>
      (defaultLiteral_watches _).andThen fun _ => directives_watches overview _ _

/-- A part of a document that defines no type leaves the names of types alone. -/
theorem definition_watches {part : Definition} (noType : ∀ type, part ≠ .type type) :
    Watches (definition overview part) := by
  cases part with
  | type type => exact absurd rfl (noType type)
  | schema schema =>
      have marked : Watches (modify fun progress => { progress with hasSchema := true }) :=
        .remember (fun _ => rfl) fun _ => rfl
      refine .ofGet fun seen => ?_
      have others := marked.andThen fun _ => schemaParts_watches overview schema
      split
      · exact (Watches.report _).andThen fun _ => others
      · exact others
  | schemaExtension schema => exact schemaParts_watches overview schema
  | typeExtension type =>
      exact (uniqueMembers_watches type).andThen fun _ =>
        (uniqueOnType_watches overview _ _).andThen fun _ =>
          (extensionTarget_watches overview type).andThen fun _ => typeParts_watches overview _ type
  | directive directive =>
      have others := argumentDefinitions_watches overview directive.arguments
      refine (uniqueArguments_watches _ _).andThen fun _ => .ofGet fun seen => ?_
      split
      · exact (Watches.report _).andThen fun _ => others
      · refine .andThen (.remember ?_ ?_) fun _ => others <;> exact fun _ => rfl
  | operation operation definitions applied inner =>
      exact (uniqueHere_watches overview _).andThen fun _ =>
        .andThen (.forM (variableDefinition_watches overview) _) fun _ =>
          (directives_watches overview _ _).andThen fun _ => selections_watches overview inner
  | fragment name condition applied inner =>
      exact (uniqueHere_watches overview _).andThen fun _ =>
        (typeName_watches overview false _).andThen fun _ =>
          (directives_watches overview _ _).andThen fun _ => selections_watches overview inner

variable {overview}

/-- Without breaches at the end there are none before. -/
theorem Watches.eq_nil {inspection : Inspection} (watches : Watches inspection)
    {progress : Progress} (clean : (inspection.run progress).2.breaches = []) :
    progress.breaches = [] :=
  List.suffix_nil.mp (clean ▸ watches.breaches progress)

/-- The names of the types that a part of a document defines. -/
def typeNames : Definition → List Text
  | .type type => [type.name]
  | _ => []

/-- The last type with the name of an extension is of its kind. -/
def Extends (overview : Overview) (extension : TypeDefinition) : Prop :=
  ∃ type, (overview.types.reverse.find? fun type => type.name = extension.name) = some type ∧
    type.body.kind = extension.body.kind

/-- An extension of which there is nothing to report extends a type of its kind. -/
theorem extends_of_extensionTarget {extension : TypeDefinition} {progress : Progress}
    (clean : ((extensionTarget overview extension).run progress).2.breaches = []) :
    Extends overview extension := by
  unfold extensionTarget at clean
  split at clean
  · next type found =>
      split at clean
      · next sameKind => exact ⟨type, found, sameKind⟩
      · cases clean
  · cases clean

/-- What is inspected of a type after its name. -/
def typeBody (overview : Overview) (type : TypeDefinition) : Inspection := do
  uniqueMembers type
  uniqueOnType overview type.name type.directives
  typeParts overview "INPUT_FIELD_DEFINITION" type

/-- To look at the parts of a type that is defined watches: its name alone is remembered, and
before. -/
theorem typeBody_watches (type : TypeDefinition) : Watches (typeBody overview type) :=
  (uniqueMembers_watches type).andThen fun _ =>
    (uniqueOnType_watches overview _ _).andThen fun _ => typeParts_watches overview _ type

/-- The name of a type is a breach if it was seen before, and is remembered otherwise. -/
theorem definition_type_run (type : TypeDefinition) (progress : Progress) :
    (definition overview (.type type)).run progress = (typeBody overview type).run
      (if progress.types.contains type.name then
        { progress with breaches := .severalTypes type.name :: progress.breaches }
      else { progress with types := type.name :: progress.types }) := by
  have unfolded : definition overview (.type type) = (do
      if (← get).types.contains type.name then
        report (.severalTypes type.name)
        typeBody overview type
      else
        modify fun progress => { progress with types := type.name :: progress.types }
        typeBody overview type) := rfl
  rw [unfolded, StateT.run_bind]
  by_cases known : progress.types.contains type.name = true
  · simp only [StateT.run_get, pure_bind, known, if_true]
    rfl
  · simp only [StateT.run_get, pure_bind, known, if_false, Bool.false_eq_true]
    rfl

/-- A part of a document without breaches defines a type for the first time, if it defines one, and
extends a type of its kind, if it extends one. -/
theorem definition_clean {part : Definition} {progress : Progress}
    (clean : ((definition overview part).run progress).2.breaches = []) :
    progress.breaches = [] ∧ (∀ name ∈ typeNames part, name ∉ progress.types) ∧
      ((definition overview part).run progress).2.types = typeNames part ++ progress.types ∧
      ∀ extension, part = .typeExtension extension → Extends overview extension := by
  have others (noType : ∀ type, part ≠ .type type) : progress.breaches = [] ∧
      ((definition overview part).run progress).2.types = progress.types :=
    ⟨(definition_watches overview noType).eq_nil clean,
      (definition_watches overview noType).types progress⟩
  cases part with
  | type type =>
      rw [definition_type_run] at clean ⊢
      have before := (typeBody_watches type).eq_nil clean
      split at before
      · cases before
      · next unknown =>
          rw [if_neg unknown, (typeBody_watches type).types]
          have isNew : type.name ∉ progress.types := by simpa using unknown
          exact ⟨before, by simpa [typeNames] using isNew, rfl, by simp⟩
  | typeExtension extension =>
      obtain ⟨before, sameTypes⟩ := others (by simp)
      refine ⟨before, List.forall_mem_nil _, sameTypes, ?_⟩
      rintro _ ⟨⟩
      have target : Watches (typeParts overview "ARGUMENT_DEFINITION" extension) :=
        typeParts_watches overview _ extension
      exact extends_of_extensionTarget (target.eq_nil clean)
  | schema | schemaExtension | directive | operation | fragment =>
      obtain ⟨before, sameTypes⟩ := others (by simp)
      exact ⟨before, List.forall_mem_nil _, sameTypes, by simp⟩

/-- A document without breaches defines no type twice, and all its extensions extend types of their
kinds. -/
theorem document_clean {document : List Definition} {progress : Progress}
    (clean : ((document.forM (definition overview)).run progress).2.breaches = []) :
    progress.breaches = [] ∧ (document.flatMap typeNames).Nodup ∧
      (∀ name ∈ document.flatMap typeNames, name ∉ progress.types) ∧
      ∀ extension, .typeExtension extension ∈ document → Extends overview extension := by
  induction document generalizing progress with
  | nil => exact ⟨clean, List.nodup_nil, List.forall_mem_nil _, by simp⟩
  | cons part rest inductionHypothesis =>
      have inRest : ((rest.forM (definition overview)).run
          ((definition overview part).run progress).2).2.breaches = [] := clean
      obtain ⟨middle, unique, apart, extensions⟩ := inductionHypothesis inRest
      obtain ⟨before, unknown, types, extension⟩ := definition_clean middle
      rw [types] at apart
      have atMost : (typeNames part).Nodup := by
        unfold typeNames
        split <;> simp
      refine ⟨before, ?_, ?_, ?_⟩
      · rw [List.flatMap_cons]
        refine List.nodup_append'.mpr ⟨atMost, unique, fun name inPart later => ?_⟩
        exact apart name later (List.mem_append_left _ inPart)
      · rw [List.flatMap_cons, List.forall_mem_append]
        exact ⟨unknown, fun name mem known => apart name mem (List.mem_append_right _ known)⟩
      · intro other mem
        rcases List.mem_cons.mp mem with isPart | later
        · exact extension other isPart.symm
        · exact extensions other later

end Inspection

/-- The types of a document are those whose names are seen on the way. -/
theorem map_name_types (document : List Definition) :
    (Overview.ofDocument document).types.map TypeDefinition.name =
      document.flatMap Inspection.typeNames := by
  rw [Overview.ofDocument, List.map_filterMap]
  induction document with
  | nil => rfl
  | cons part rest inductionHypothesis =>
      rw [List.flatMap_cons, ← inductionHypothesis]
      cases part <;> rfl

/-- In a document without breaches a type and an extension with its name are of the same kind. -/
theorem kind_eq_of_breaches {document : List Definition} (clean : breaches document = [])
    {type extension : TypeDefinition} (isType : .type type ∈ document)
    (isExtension : .typeExtension extension ∈ document) (sameName : extension.name = type.name) :
    extension.body.kind = type.body.kind := by
  obtain ⟨-, unique, -, extensions⟩ :=
    Inspection.document_clean (List.reverse_eq_nil_iff.mp clean)
  obtain ⟨target, found, sameKind⟩ := extensions extension isExtension
  rw [← map_name_types] at unique
  have typeMem : type ∈ (Overview.ofDocument document).types :=
    List.mem_filterMap.mpr ⟨_, isType, rfl⟩
  have targetMem := List.mem_reverse.mp (List.mem_of_find?_eq_some found)
  have targetName : target.name = extension.name := by simpa using List.find?_some found
  obtain rfl := List.inj_on_of_nodup_map unique targetMem typeMem (targetName.trans sameName)
  exact sameKind.symm

end SchemaOrder.Document
