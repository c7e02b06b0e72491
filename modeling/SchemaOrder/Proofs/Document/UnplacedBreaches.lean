import SchemaOrder.Document.Rules
import SchemaOrder.Proofs.Document.Unplaced

/-!
# Breaches without places

No rule for documents asks where something stands. An inspection of a part of a document without
places is therefore the inspection of the part itself, and both documents have the same breaches.
-/

namespace SchemaOrder.Document

/-- What the rules have to know of a document without places. -/
def Overview.unplaced (overview : Overview) : Overview :=
  { overview with types := overview.types.map TypeDefinition.unplaced }

/-- An overview of a document knows the same directives without places. -/
@[simp] theorem Overview.directives_unplaced (overview : Overview) :
    overview.unplaced.directives = overview.directives :=
  rfl

/-- Names are no places. -/
theorem map_name_unplaced (applied : List Directive) :
    (applied.map Directive.unplaced).map Directive.name = applied.map Directive.name :=
  List.map_map ..

/-- It knows types of the same names without places. -/
@[simp] theorem Overview.map_name_types_unplaced (overview : Overview) :
    overview.unplaced.types.map TypeDefinition.name = overview.types.map TypeDefinition.name :=
  List.map_map ..

/-- The rule that a directive is defined by has no places. -/
theorem DirectiveRule.ofDefinition_unplaced (definition : DirectiveDefinition) :
    DirectiveRule.ofDefinition definition.unplaced = DirectiveRule.ofDefinition definition := by
  simp only [ofDefinition, DirectiveDefinition.unplaced, List.map_map, List.filter_map]
  rfl

/-- The rule that a part of a document makes for a directive. -/
def DirectiveRule.ofPart? : Definition → Option DirectiveRule
  | .directive definition => some (.ofDefinition definition)
  | _ => none

/-- What the rules have to know of a document loses its places with the document. -/
theorem Overview.ofDocument_unplaced (document : List Definition) :
    ofDocument (document.map Definition.unplaced) = (ofDocument document).unplaced := by
  have types : (ofDocument (document.map Definition.unplaced)).types =
      (ofDocument document).types.map TypeDefinition.unplaced :=
    filterMap_unplaced (fun part => by cases part <;> rfl) document
  have rules : (document.map Definition.unplaced).filterMap DirectiveRule.ofPart? =
      (document.filterMap DirectiveRule.ofPart?).map id := by
    refine filterMap_unplaced (fun part => ?_) document
    cases part with
    | directive definition =>
        exact congrArg some (DirectiveRule.ofDefinition_unplaced definition)
    | _ => rfl
  rw [List.map_id] at rules
  have directives : (ofDocument (document.map Definition.unplaced)).directives =
      (ofDocument document).directives :=
    congrArg (fun rules => Named.ofList DirectiveRule.name
      (Schema.Standard.directives.map DirectiveRule.ofStandard ++ rules)) rules
  exact congrArg₂ mk types directives

namespace Inspection

variable (overview : Overview)

/-- Inspecting things without places one after the other. -/
theorem forM_map_unplaced {α : Type} {erase : α → α} {inspect inspect' : α → Inspection}
    (each : ∀ thing, inspect' (erase thing) = inspect thing) (things : List α) :
    (things.map erase).forM inspect' = things.forM inspect := by
  induction things with
  | nil => rfl
  | cons first others inductionHypothesis =>
      change (inspect' (erase first) >>= fun _ => (others.map erase).forM inspect') =
        inspect first >>= fun _ => others.forM inspect
      rw [each, inductionHypothesis]

/-- Whether a type is known does not depend on where it is defined. -/
theorem typeName_unplaced : typeName overview.unplaced = typeName overview := by
  funext isInSchema name
  simp only [typeName, Overview.map_name_types_unplaced]

/-- Which arguments are repeated does not depend on where they stand. -/
theorem repeatedArguments_unplaced (arguments : List Argument) :
    repeatedArguments (arguments.map Argument.unplaced) = repeatedArguments arguments := by
  unfold repeatedArguments
  rw [List.map_map]
  rfl

/-- Values of arguments are looked at without regard to their places. -/
theorem argumentValues_unplaced (arguments : List Argument) :
    argumentValues (arguments.map Argument.unplaced) = argumentValues arguments :=
  forM_map_unplaced (fun _ => rfl) arguments

/-- The same breaches are found in a directive wherever it is applied. -/
theorem directive_unplaced (location : Text) (applied : Directive) :
    directive overview.unplaced location applied.unplaced =
      directive overview location applied := by
  have known : ∀ rule : DirectiveRule,
      ((applied.arguments.map Argument.unplaced).forM fun argument =>
        if rule.arguments.contains argument.name then pure ()
        else report (.unknownArgument applied.name argument.name
          (Text.suggestions argument.name rule.arguments))) =
      applied.arguments.forM fun argument =>
        if rule.arguments.contains argument.name then pure ()
        else report (.unknownArgument applied.name argument.name
          (Text.suggestions argument.name rule.arguments)) :=
    fun rule => forM_map_unplaced (fun _ => rfl) applied.arguments
  simp only [directive, Directive.unplaced, Overview.directives_unplaced, known,
    repeatedArguments_unplaced, argumentValues_unplaced, List.any_map]
  rfl

/-- The same breaches are found in several directives. -/
theorem directives_unplaced (location : Text) (applied : List Directive) :
    directives overview.unplaced location (applied.map Directive.unplaced) =
      directives overview location applied :=
  forM_map_unplaced (directive_unplaced overview location) applied

/-- Which directives may stand once only does not depend on their places. -/
theorem unrepeatable_unplaced (applied : List Directive) :
    unrepeatable overview.unplaced (applied.map Directive.unplaced) =
      unrepeatable overview applied := by
  unfold unrepeatable
  rw [map_name_unplaced]
  rfl

/-- The same of them are repeated where they stand. -/
theorem uniqueHere_unplaced (applied : List Directive) :
    uniqueHere overview.unplaced (applied.map Directive.unplaced) =
      uniqueHere overview applied := by
  unfold uniqueHere
  rw [unrepeatable_unplaced]

/-- The same of them are repeated on definitions and extensions of the schema. -/
theorem uniqueOnSchema_unplaced (applied : List Directive) :
    uniqueOnSchema overview.unplaced (applied.map Directive.unplaced) =
      uniqueOnSchema overview applied := by
  unfold uniqueOnSchema
  rw [unrepeatable_unplaced]

/-- The same of them are repeated on definitions and extensions of a type. -/
theorem uniqueOnType_unplaced (type : Text) (applied : List Directive) :
    uniqueOnType overview.unplaced type (applied.map Directive.unplaced) =
      uniqueOnType overview type applied := by
  unfold uniqueOnType
  rw [unrepeatable_unplaced]

/-- The same breaches are found in the definition of an argument or an input field. -/
theorem inputValue_unplaced (location : Text) (definition : InputValueDefinition) :
    inputValue overview.unplaced location definition.unplaced =
      inputValue overview location definition := by
  simp only [inputValue, InputValueDefinition.unplaced, uniqueHere_unplaced, typeName_unplaced,
    directives_unplaced]

/-- The same breaches are found in several of these. -/
theorem argumentDefinitions_unplaced (arguments : List InputValueDefinition) :
    argumentDefinitions overview.unplaced (arguments.map InputValueDefinition.unplaced) =
      argumentDefinitions overview arguments :=
  forM_map_unplaced (inputValue_unplaced overview _) arguments

/-- The same breaches are found in the definition of a field. -/
theorem fieldDefinition_unplaced (definition : FieldDefinition) :
    fieldDefinition overview.unplaced definition.unplaced =
      fieldDefinition overview definition := by
  simp only [fieldDefinition, FieldDefinition.unplaced, uniqueHere_unplaced, typeName_unplaced,
    directives_unplaced, argumentDefinitions_unplaced]

/-- The same breaches are found in the definition of a value of an enum. -/
theorem enumValueDefinition_unplaced (definition : EnumValueDefinition) :
    enumValueDefinition overview.unplaced definition.unplaced =
      enumValueDefinition overview definition := by
  simp only [enumValueDefinition, EnumValueDefinition.unplaced, uniqueHere_unplaced,
    directives_unplaced]

/-- The same arguments are defined twice. -/
theorem uniqueArguments_unplaced (owner : Text) (arguments : List InputValueDefinition) :
    uniqueArguments owner (arguments.map InputValueDefinition.unplaced) =
      uniqueArguments owner arguments := by
  unfold uniqueArguments
  rw [List.map_map]
  rfl

/-- The same fields, and values of enums, are defined twice. -/
theorem uniqueMembers_unplaced (definition : TypeDefinition) :
    uniqueMembers definition.unplaced = uniqueMembers definition := by
  obtain ⟨description, name, applied, body⟩ := definition
  have names : ∀ defined : List FieldDefinition,
      (defined.map FieldDefinition.unplaced).map FieldDefinition.name =
        defined.map FieldDefinition.name :=
    fun _ => List.map_map ..
  have arguments : ∀ defined : List FieldDefinition,
      ((defined.map FieldDefinition.unplaced).forM fun field =>
        uniqueArguments (name ++ "." ++ field.name) field.arguments) =
      defined.forM fun field => uniqueArguments (name ++ "." ++ field.name) field.arguments :=
    forM_map_unplaced fun field => uniqueArguments_unplaced _ field.arguments
  cases body with
  | scalar => rfl
  | object interfaces defined | interface interfaces defined =>
      simp only [uniqueMembers, TypeDefinition.unplaced, TypeBody.unplaced, names, arguments]
  | union members => rfl
  | enum values => exact forM_map_unplaced (fun _ => rfl) values
  | inputObject defined => exact congrArg (uniqueFields name) (List.map_map ..)

/-- The same breaches are found in the parts of a type. -/
theorem typeParts_unplaced (location : Text) (definition : TypeDefinition) :
    typeParts overview.unplaced location definition.unplaced =
      typeParts overview location definition := by
  obtain ⟨description, name, applied, body⟩ := definition
  cases body <;>
    simp only [typeParts, TypeDefinition.unplaced, TypeBody.unplaced, TypeBody.kind,
      directives_unplaced, typeName_unplaced,
      forM_map_unplaced (fieldDefinition_unplaced overview),
      forM_map_unplaced (enumValueDefinition_unplaced overview),
      forM_map_unplaced (inputValue_unplaced overview location)]

/-- The same breaches are found in what an extension extends. -/
theorem extensionTarget_unplaced (definition : TypeDefinition) :
    extensionTarget overview.unplaced definition.unplaced =
      extensionTarget overview definition := by
  have sameTarget : (overview.unplaced.types.reverse.find? fun type =>
        type.name = definition.unplaced.name) =
      (overview.types.reverse.find? fun type => type.name = definition.name).map
        TypeDefinition.unplaced := by
    rw [Overview.unplaced, ← List.map_reverse, List.find?_map]
    rfl
  unfold extensionTarget
  rw [sameTarget, Overview.map_name_types_unplaced]
  cases overview.types.reverse.find? fun type => type.name = definition.name with
  | none => rfl
  | some type =>
      simp only [Option.map_some, TypeDefinition.unplaced, TypeBody.kind_unplaced]

/-- The same breaches are found in the definition of a schema. -/
theorem schemaParts_unplaced (definition : SchemaDefinition) :
    schemaParts overview.unplaced definition.unplaced = schemaParts overview definition := by
  simp only [schemaParts, SchemaDefinition.unplaced, uniqueOnSchema_unplaced, directives_unplaced,
    typeName_unplaced]

mutual

/-- The same breaches are found in what an operation selects. -/
theorem selection_unplaced : ∀ inner,
    selection overview.unplaced (Selection.unplaced inner) = selection overview inner
  | .field _ _ arguments applied inner => by
    simp only [Selection.unplaced, selection, uniqueHere_unplaced, repeatedArguments_unplaced,
      argumentValues_unplaced, directives_unplaced, selections_unplaced inner]
  | .spread _ applied => by
    simp only [Selection.unplaced, selection, uniqueHere_unplaced, directives_unplaced]
  | .inline condition applied inner => by
    simp only [Selection.unplaced, selection, uniqueHere_unplaced, typeName_unplaced,
      directives_unplaced, selections_unplaced inner]

/-- The same breaches are found in all that it selects in braces. -/
theorem selections_unplaced : ∀ inner,
    selections overview.unplaced (Selection.allUnplaced inner) = selections overview inner
  | [] => rfl
  | first :: rest => by
    simp only [Selection.allUnplaced, selections, selection_unplaced first,
      selections_unplaced rest]

end

/-- The same breaches are found in a variable of an operation. -/
theorem variableDefinition_unplaced (definition : VariableDefinition) :
    variableDefinition overview.unplaced definition.unplaced =
      variableDefinition overview definition := by
  simp only [variableDefinition, VariableDefinition.unplaced, uniqueHere_unplaced,
    typeName_unplaced, directives_unplaced]

/-- The same breaches are found in a definition of any kind. -/
theorem definition_unplaced (part : Definition) :
    definition overview.unplaced part.unplaced = definition overview part := by
  cases part with
  | schema schema => simp only [Definition.unplaced, definition, schemaParts_unplaced]
  | schemaExtension schema => exact schemaParts_unplaced overview schema
  | type type =>
      simp only [Definition.unplaced, definition, uniqueMembers_unplaced, typeParts_unplaced]
      simp only [TypeDefinition.unplaced, uniqueOnType_unplaced]
  | typeExtension type =>
      simp only [Definition.unplaced, definition, uniqueMembers_unplaced, typeParts_unplaced,
        extensionTarget_unplaced]
      simp only [TypeDefinition.unplaced, uniqueOnType_unplaced]
  | directive directive =>
      simp only [Definition.unplaced, definition, DirectiveDefinition.unplaced,
        uniqueArguments_unplaced, argumentDefinitions_unplaced]
  | operation operation definitions applied inner =>
      simp only [Definition.unplaced, definition, uniqueHere_unplaced, directives_unplaced,
        forM_map_unplaced (variableDefinition_unplaced overview),
        ← Selection.allUnplaced_eq_map, selections_unplaced]
  | fragment name condition applied inner =>
      simp only [Definition.unplaced, definition, uniqueHere_unplaced, directives_unplaced,
        typeName_unplaced, ← Selection.allUnplaced_eq_map, selections_unplaced]

end Inspection

/-- A document has the same breaches without places. -/
theorem breaches_unplaced (document : List Definition) :
    breaches (document.map Definition.unplaced) = breaches document := by
  simp only [breaches, Overview.ofDocument_unplaced,
    Inspection.forM_map_unplaced (Inspection.definition_unplaced (Overview.ofDocument document))]

end SchemaOrder.Document
