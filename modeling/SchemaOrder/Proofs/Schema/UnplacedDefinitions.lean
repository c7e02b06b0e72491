import SchemaOrder.Proofs.Collections
import SchemaOrder.Proofs.Document.Unplaced
import SchemaOrder.Proofs.Schema.DocumentReferences
import SchemaOrder.Proofs.Schema.ParallelDrafts
import SchemaOrder.Schema.OfDocument

/-!
# Schemas of documents without places

Places in a document, and its text, are looked at for the excerpts in faults alone. A document
without places therefore defines the schema that the document defines, and where it defines none,
the faults are of the same kind. This is shown along the functions that read a document.
-/

namespace SchemaOrder

open Outcome (Parallel)

namespace Named

variable {α β : Type} {name : α → Text} {name' : β → Text} {change : α → β}

/-- Things are found under the names they keep. -/
theorem find?_map (names : ∀ thing, name' (change thing) = name thing) (wanted : Text)
    (things : List α) :
    find? name' wanted (things.map change) = (find? name wanted things).map change := by
  unfold find?
  rw [List.find?_map]
  simp only [Function.comp_def, names]

/-- A thing is put in the place that it would have under the name it keeps. -/
theorem insert_map (names : ∀ thing, name' (change thing) = name thing) (thing : α)
    (known : List α) :
    insert name' (change thing) (known.map change) = (insert name thing known).map change := by
  induction known with
  | nil => rfl
  | cons first others inductionHypothesis =>
      rw [List.map_cons, insert, insert, names, names, inductionHypothesis]
      split <;> rfl

/-- Things that keep their names are collected in the same way. -/
theorem ofList_map (names : ∀ thing, name' (change thing) = name thing) (things : List α) :
    ofList name' (things.map change) = (ofList name things).map change := by
  have general : ∀ known : List α,
      (things.map change).foldl (fun known thing => insert name' thing known) (known.map change) =
        (things.foldl (fun known thing => insert name thing known) known).map change := by
    induction things with
    | nil => exact fun _ => rfl
    | cons first others inductionHypothesis =>
        intro known
        rw [List.map_cons, List.foldl_cons, List.foldl_cons, insert_map names, inductionHypothesis]
  exact general []

end Named

/-- Faults of one kind. -/
def SchemaFault.SameKind (left right : SchemaFault) : Prop :=
  left.kind = right.kind

/-- A fault is of its own kind. -/
theorem SchemaFault.SameKind.refl (fault : SchemaFault) : fault.SameKind fault :=
  rfl

/-- The kind of a fault in a part of a type depends on the kind of its cause. -/
theorem SchemaFault.SameKind.unresolved {left right : SchemaFault} (same : left.SameKind right)
    (owner : Text) (part : TypePart) :
    (SchemaFault.unresolved owner part left).SameKind (.unresolved owner part right) := by
  unfold SameKind at same ⊢
  rw [kind, kind, same]

namespace Schema

open SchemaFault (SameKind)

namespace Definitions

/-- The definitions of a document without places. Its text is left out. -/
def unplaced (definitions : Definitions) : Definitions where
  source := []
  types := definitions.types.map Document.TypeDefinition.unplaced
  extensions := definitions.extensions.map Document.TypeDefinition.unplaced

variable (definitions : Definitions)

/-- A fault within a part of a type is of the kind of the fault that it was. -/
theorem within_parallel {α : Type} {left right : Except SchemaFault α}
    (parallel : Parallel SameKind Eq left right) (owner : Text) (part : TypePart) :
    Parallel SameKind Eq (within owner part left) (within owner part right) :=
  parallel.mapError fun _ _ same => same.unresolved owner part

/-- A type and its extensions are the same ones in a document without places. -/
theorem nodes_unplaced (definition : Document.TypeDefinition) :
    definitions.unplaced.nodes definition.unplaced =
      (definitions.nodes definition).map Document.TypeDefinition.unplaced := by
  unfold nodes
  rw [List.map_cons, unplaced, List.filter_map]
  rfl

/-- So is the type that is found under a name. -/
theorem find?_unplaced (name : Text) :
    Named.find? Document.TypeDefinition.name name definitions.unplaced.types =
      (Named.find? Document.TypeDefinition.name name definitions.types).map
        Document.TypeDefinition.unplaced :=
  Named.find?_map (fun _ => rfl) name definitions.types

/-- Names stand for types of the same kinds. -/
theorem kindOf_unplaced : definitions.unplaced.kindOf = definitions.kindOf := by
  funext name
  unfold kindOf
  rw [find?_unplaced]
  cases Named.find? Document.TypeDefinition.name name definitions.types with
  | none => rfl
  | some definition =>
      rw [Option.map_some]
      simp only [Document.TypeDefinition.unplaced, Document.TypeBody.kind_unplaced]

/-- A name that stands for no type of a kind stands for none without places either. -/
theorem kindOf_parallel (name : Text) :
    Parallel SameKind Eq (definitions.kindOf name) (definitions.unplaced.kindOf name) := by
  rw [kindOf_unplaced]
  exact .refl SameKind.refl _

/-- The types of the standard directives are in no document. -/
theorem standardInputTypes_alike : standardInputTypes.Alike SameKind standardInputTypes where
  shape _ := .scalar
  notInput _ := rfl

/-- Nothing but excerpts depends on where an argument stands. -/
theorem argumentValue_parallel (argument : InputValue) (directive : Document.Directive) :
    Parallel SameKind Eq (definitions.argumentValue argument directive)
      (definitions.unplaced.argumentValue argument directive.unplaced) := by
  have sameGiven : directive.unplaced.arguments.reverse.find?
        (fun given => given.name = argument.name) =
      (directive.arguments.reverse.find? fun given => given.name = argument.name).map
        Document.Argument.unplaced := by
    rw [Document.Directive.unplaced, ← List.map_reverse, List.find?_map]
    rfl
  unfold argumentValue
  rw [sameGiven]
  dsimp only
  cases directive.arguments.reverse.find? fun given => given.name = argument.name with
  | none =>
      cases argument.default? with
      | some value => exact .ok rfl
      | none =>
          dsimp only [Option.map_none]
          split
          · exact .error rfl
          · exact .ok rfl
  | some given =>
      obtain ⟨name, value, position⟩ := given
      dsimp only [Option.map_some, Document.Argument.unplaced]
      split
      · exact .error rfl
      · refine (Coercion.coerce_parallel standardInputTypes_alike _ _).bindSame fun value? => ?_
        cases value? with
        | none => exact .error rfl
        | some value => exact .ok rfl

/-- A standard directive is applied to the same values with places and without. -/
theorem appliedArguments_parallel (standard : Directive) (directives : List Document.Directive) :
    Parallel SameKind Eq (definitions.appliedArguments standard directives)
      (definitions.unplaced.appliedArguments standard
        (directives.map Document.Directive.unplaced)) := by
  have sameApplied : (directives.map Document.Directive.unplaced).find?
        (fun directive => directive.name = standard.name) =
      (directives.find? fun directive => directive.name = standard.name).map
        Document.Directive.unplaced :=
    List.find?_map ..
  unfold appliedArguments
  rw [sameApplied]
  cases directives.find? fun directive => directive.name = standard.name with
  | none => exact .ok rfl
  | some directive =>
      refine (Parallel.mapM_same (fun argument => ?_) standard.arguments).bindSame
        fun _ => .ok rfl
      exact (definitions.argumentValue_parallel argument directive).bindSame fun _ => .ok rfl

/-- So is one that is asked for a text, such as the reason of a deprecation. -/
theorem appliedText_parallel (standard : Directive) (argument : Text)
    (directives : List Document.Directive) :
    Parallel SameKind Eq (definitions.appliedText standard argument directives)
      (definitions.unplaced.appliedText standard argument
        (directives.map Document.Directive.unplaced)) := by
  refine (definitions.appliedArguments_parallel standard directives).bindSame fun values? => ?_
  cases values? with
  | none => exact .ok rfl
  | some values =>
      dsimp only
      split <;> exact .ok rfl

/-- Whether a type may stand in a place is told from its kind alone. -/
theorem checkPlace_parallel (admitted : Bool) (place : TypePlace) :
    Parallel SameKind Eq (checkPlace admitted place) (checkPlace admitted place) := by
  unfold checkPlace
  split
  · exact .ok rfl
  · exact .error rfl

variable {types types' : InputTypes SchemaFault}

/-- An argument or an input field comes out the same, default and all. -/
theorem inputValue_parallel (alike : types.Alike SameKind types') (place : TypePlace)
    (definition : Document.InputValueDefinition) :
    Parallel SameKind Eq (definitions.inputValue types place definition)
      (definitions.unplaced.inputValue types' place definition.unplaced) := by
  obtain ⟨description, name, type, default?, directives⟩ := definition
  refine (definitions.kindOf_parallel type.base).bindSame fun kind => ?_
  have rest := fun default? : Option Value =>
    (definitions.appliedText_parallel Standard.deprecatedDirective "reason" directives).bindSame
      fun deprecation => (checkPlace_parallel kind.isInput place).bindSame fun _ =>
        (.ok rfl : Parallel SameKind Eq
          (.ok (⟨name, type, default?, description, deprecation⟩ : InputValue)) (.ok _))
  cases default? with
  | none => exact rest none
  | some literal => exact (Coercion.coerce_parallel alike literal type).bindSame rest

/-- Extensions fit a type by their kinds, which places leave alone. -/
theorem checkExtensions_unplaced (definition : Document.TypeDefinition) :
    definitions.unplaced.checkExtensions definition.unplaced =
      definitions.checkExtensions definition := by
  simp only [checkExtensions, nodes_unplaced, List.all_map, Function.comp_def]
  simp only [Document.TypeDefinition.unplaced, Document.TypeBody.kind_unplaced]

/-- The parts of a type that it and its extensions define are worked out one by one. -/
theorem nodes_mapM_parallel {α : Type}
    {compute compute' : Document.TypeDefinition → Except SchemaFault α}
    (each : ∀ node, Parallel SameKind Eq (compute node) (compute' node.unplaced))
    (definition : Document.TypeDefinition) :
    Parallel SameKind Eq ((definitions.nodes definition).mapM compute)
      ((definitions.unplaced.nodes definition.unplaced).mapM compute') := by
  rw [nodes_unplaced]
  exact Parallel.mapM_map each _

/-- The fields of an input object are worked out one by one, along all that define them. -/
theorem definedInputFields_parallel (alike : types.Alike SameKind types')
    (definition : Document.TypeDefinition) :
    Parallel SameKind Eq (definitions.definedInputFields types definition)
      (definitions.unplaced.definedInputFields types' definition.unplaced) := by
  refine (definitions.nodes_mapM_parallel (fun node => ?_) definition).bindSame fun _ => .ok rfl
  obtain ⟨description, name, directives, body⟩ := node
  cases body with
  | inputObject fields =>
      exact Parallel.mapM_map (definitions.inputValue_parallel alike .inputField) fields
  | _ => exact .ok rfl

/-- The values of an enum keep their names. -/
theorem enumValueNames_unplaced (definition : Document.TypeDefinition) :
    definitions.unplaced.enumValueNames definition.unplaced =
      definitions.enumValueNames definition := by
  unfold enumValueNames
  rw [nodes_unplaced, List.flatMap_map]
  refine congrArg (List.flatMap · _) (funext fun node => ?_)
  obtain ⟨description, name, directives, body⟩ := node
  cases body with
  | «enum» values => exact List.map_map ..
  | _ => rfl

/-- An input object takes one field with places where it does without. -/
theorem isOneOf_parallel (definition : Document.TypeDefinition) :
    Parallel SameKind Eq (definitions.isOneOf definition)
      (definitions.unplaced.isOneOf definition.unplaced) :=
  (definitions.appliedArguments_parallel _ definition.directives).bindSame fun _ => .ok rfl

/-- Where it cannot be said whether an input object takes one field, it does not. -/
theorem isOneOf_unplaced (definition : Document.TypeDefinition) :
    (match definitions.unplaced.isOneOf definition.unplaced with
      | .ok isOneOf => isOneOf
      | .error _ => false) =
      match definitions.isOneOf definition with
      | .ok isOneOf => isOneOf
      | .error _ => false := by
  have parallel := definitions.isOneOf_parallel definition
  generalize definitions.isOneOf definition = left,
    definitions.unplaced.isOneOf definition.unplaced = right at parallel ⊢
  cases parallel with
  | ok same => exact same.symm
  | error => rfl

/-- What coercion has to know of a type does not depend on places. -/
theorem inputShape_alike (fuel : Nat) (name : Text) :
    (inputShape fuel definitions name).Alike SameKind
      (inputShape fuel definitions.unplaced name) := by
  induction fuel using Nat.strongRecOn generalizing name with
  | ind fuel inductionHypothesis =>
      unfold inputShape
      cases Standard.type? name with
      | some type =>
          dsimp only
          cases type.kind with
          | scalar => exact .scalar
          | «enum» => exact .enum _
          | _ => exact .output
      | none =>
          rw [find?_unplaced]
          cases Named.find? Document.TypeDefinition.name name definitions.types with
          | none => exact .output
          | some definition =>
              have names := definitions.enumValueNames_unplaced definition
              have oneOf := definitions.isOneOf_unplaced definition
              have fields := fun types types' (alike : InputTypes.Alike SameKind types types') =>
                within_parallel (definitions.definedInputFields_parallel alike definition) name
                  .fields
              obtain ⟨description, ownName, directives, body⟩ := definition
              cases body with
              | scalar => exact .scalar
              | «enum» values =>
                  change (InputShape.enum _).Alike SameKind (.enum _)
                  rw [names]
                  exact .enum _
              | inputObject defined =>
                  refine .inputObject ?_ oneOf.symm
                  cases fuel with
                  | zero => exact .error rfl
                  | succ fuel =>
                      exact fields _ _ ⟨inductionHypothesis fuel (Nat.lt_succ_self fuel),
                        fun _ => rfl⟩
              | _ => exact .output

/-- All that coercion asks of the types of a document is independent of places. -/
theorem inputTypes_alike :
    definitions.inputTypes.Alike SameKind definitions.unplaced.inputTypes where
  shape name := by
    have sameCount : definitions.unplaced.types.length = definitions.types.length :=
      List.length_map _
    unfold inputTypes
    rw [sameCount]
    exact definitions.inputShape_alike _ name
  notInput _ := rfl

/-- Arguments come out the same, one by one. -/
theorem arguments_parallel (defined : List Document.InputValueDefinition) :
    Parallel SameKind Eq (definitions.arguments defined)
      (definitions.unplaced.arguments (defined.map Document.InputValueDefinition.unplaced)) :=
  (Parallel.mapM_map (definitions.inputValue_parallel definitions.inputTypes_alike .argument)
    defined).bindSame fun _ => .ok rfl

/-- A field comes out the same, with its type, its arguments and its deprecation. -/
theorem field_parallel (definition : Document.FieldDefinition) :
    Parallel SameKind Eq (definitions.field definition)
      (definitions.unplaced.field definition.unplaced) :=
  (definitions.kindOf_parallel definition.type.base).bindSame fun kind =>
    (definitions.arguments_parallel definition.arguments).bindSame fun _ =>
      (definitions.appliedText_parallel _ _ definition.directives).bindSame fun _ =>
        (checkPlace_parallel kind.isOutput .field).bindSame fun _ => .ok rfl

/-- So do all fields of a type and its extensions. -/
theorem fields_parallel (definition : Document.TypeDefinition) :
    Parallel SameKind Eq (definitions.fields definition)
      (definitions.unplaced.fields definition.unplaced) := by
  refine within_parallel ?_ _ _
  refine (definitions.nodes_mapM_parallel (fun node => ?_) definition).bindSame fun _ => .ok rfl
  obtain ⟨description, name, directives, body⟩ := node
  cases body with
  | object interfaces fields | interface interfaces fields =>
      exact Parallel.mapM_map definitions.field_parallel fields
  | _ => exact .ok rfl

/-- Names are looked up in a document without places as in the document. -/
theorem kinds_parallel (names : List Text) :
    Parallel SameKind Eq (names.mapM fun name => do return (name, ← definitions.kindOf name))
      (names.mapM fun name => do return (name, ← definitions.unplaced.kindOf name)) := by
  rw [kindOf_unplaced]
  exact .refl SameKind.refl _

/-- The interfaces of a type are looked up under the same names. -/
theorem interfaces_parallel (definition : Document.TypeDefinition) :
    Parallel SameKind Eq (definitions.interfaces definition)
      (definitions.unplaced.interfaces definition.unplaced) := by
  refine (within_parallel ?_ _ _).bindSame fun kinds => ?_
  · refine (definitions.nodes_mapM_parallel (fun node => ?_) definition).bindSame fun _ => .ok rfl
    obtain ⟨description, name, directives, body⟩ := node
    cases body with
    | object interfaces fields | interface interfaces fields =>
        exact definitions.kinds_parallel interfaces
    | _ => exact .ok rfl
  · split
    · exact .ok rfl
    · exact .error rfl

/-- So are the members of a union. -/
theorem members_parallel (definition : Document.TypeDefinition) :
    Parallel SameKind Eq (definitions.members definition)
      (definitions.unplaced.members definition.unplaced) := by
  refine (within_parallel ?_ _ _).bindSame fun kinds => ?_
  · refine (definitions.nodes_mapM_parallel (fun node => ?_) definition).bindSame fun _ => .ok rfl
    obtain ⟨description, name, directives, body⟩ := node
    cases body with
    | union members => exact definitions.kinds_parallel members
    | _ => exact .ok rfl
  · split
    · exact .ok rfl
    · exact .error rfl

/-- The values of an enum come out the same, with their deprecations. -/
theorem enumValues_parallel (definition : Document.TypeDefinition) :
    Parallel SameKind Eq (definitions.enumValues definition)
      (definitions.unplaced.enumValues definition.unplaced) := by
  refine (definitions.nodes_mapM_parallel (fun node => ?_) definition).bindSame fun _ => .ok rfl
  obtain ⟨description, name, directives, body⟩ := node
  cases body with
  | «enum» values =>
      exact Parallel.mapM_map (fun value =>
        (definitions.appliedText_parallel _ _ value.directives).bindSame fun _ => .ok rfl) values
  | _ => exact .error rfl

/-- What a type holds is drafted in the same way, whatever kind it is of. -/
theorem draftBody_parallel (definition : Document.TypeDefinition) :
    Parallel SameKind (DraftBody.Alike SameKind) (definitions.draftBody definition)
      (definitions.unplaced.draftBody definition.unplaced) := by
  have interfaces := definitions.interfaces_parallel definition
  have fields := definitions.fields_parallel definition
  have members := definitions.members_parallel definition
  have values := definitions.enumValues_parallel definition
  have oneOf := definitions.isOneOf_parallel definition
  have inputFields := within_parallel
    (definitions.definedInputFields_parallel definitions.inputTypes_alike definition)
      definition.name .fields
  obtain ⟨description, name, directives, body⟩ := definition
  cases body with
  | scalar =>
      exact (definitions.appliedText_parallel _ _ directives).bindSame fun _ => .ok (.scalar _)
  | object => exact .ok (.object interfaces fields)
  | interface => exact .ok (.interface interfaces fields)
  | union => exact .ok (.union members)
  | «enum» => exact values.bindSame fun _ => .ok (.enum _)
  | inputObject => exact oneOf.bindSame fun _ => .ok (.inputObject inputFields _)

/-- A type is drafted in the same way. -/
theorem typeDraft_parallel (definition : Document.TypeDefinition) :
    Parallel SameKind (TypeDraft.Alike SameKind) (definitions.typeDraft definition)
      (definitions.unplaced.typeDraft definition.unplaced) := by
  cases isStandard : Standard.type? definition.name with
  | some type =>
      have isStandard' : Standard.type? definition.unplaced.name = some type := isStandard
      rw [typeDraft_of_standard isStandard, typeDraft_of_standard isStandard']
      exact .ok (TypeDraft.alike_ofType type)
  | none =>
      have notStandard : Standard.type? definition.unplaced.name = none := isStandard
      rw [typeDraft_of_not_standard isStandard, typeDraft_of_not_standard notStandard,
        checkExtensions_unplaced]
      refine (definitions.draftBody_parallel definition).bind fun body body' bodies => ?_
      cases definitions.checkExtensions definition with
      | error fault => exact .error rfl
      | ok => exact .ok ⟨rfl, rfl, bodies⟩

/-- A directive comes out the same. -/
theorem directive_parallel (definition : Document.DirectiveDefinition) :
    Parallel SameKind Eq (definitions.directive definition)
      (definitions.unplaced.directive definition.unplaced) :=
  (definitions.arguments_parallel definition.arguments).bindSame fun _ => .ok rfl

end Definitions

namespace DocumentParts

/-- The parts of a document that define a schema, without places. -/
def unplaced (parts : DocumentParts) : DocumentParts where
  schemas := parts.schemas.map Document.SchemaDefinition.unplaced
  schemaExtensions := parts.schemaExtensions.map Document.SchemaDefinition.unplaced
  types := parts.types.map Document.TypeDefinition.unplaced
  typeExtensions := parts.typeExtensions.map Document.TypeDefinition.unplaced
  directives := parts.directives.map Document.DirectiveDefinition.unplaced

/-- The definitions of a document without places are those of the document without their places. -/
theorem ofDefinitions_unplaced (document : List Document.Definition) :
    ofDefinitions (document.map Document.Definition.unplaced) =
      (ofDefinitions document).unplaced := by
  have schemas : (ofDefinitions (document.map Document.Definition.unplaced)).schemas =
      (ofDefinitions document).unplaced.schemas :=
    Document.filterMap_unplaced (fun part => by cases part <;> rfl) document
  have schemaExtensions :
      (ofDefinitions (document.map Document.Definition.unplaced)).schemaExtensions =
        (ofDefinitions document).unplaced.schemaExtensions :=
    Document.filterMap_unplaced (fun part => by cases part <;> rfl) document
  have types : (ofDefinitions (document.map Document.Definition.unplaced)).types =
      (ofDefinitions document).unplaced.types :=
    Document.filterMap_unplaced (fun part => by cases part <;> rfl) document
  have typeExtensions :
      (ofDefinitions (document.map Document.Definition.unplaced)).typeExtensions =
        (ofDefinitions document).unplaced.typeExtensions :=
    Document.filterMap_unplaced (fun part => by cases part <;> rfl) document
  have directives : (ofDefinitions (document.map Document.Definition.unplaced)).directives =
      (ofDefinitions document).unplaced.directives :=
    Document.filterMap_unplaced (fun part => by cases part <;> rfl) document
  cases isParts : ofDefinitions (document.map Document.Definition.unplaced)
  simp_all

variable (parts : DocumentParts)

/-- A document says as little without places as it does with them. -/
theorem isEmpty_unplaced : parts.unplaced.isEmpty = parts.isEmpty := by
  simp [isEmpty, unplaced]

/-- The schema has the same operations. -/
theorem operations_unplaced : parts.unplaced.operations = parts.operations := by
  simp only [operations, unplaced, ← List.map_reverse, ← List.map_take, ← List.map_append,
    List.flatMap_map]
  rfl

/-- An operation has the same type. -/
theorem root_unplaced : parts.unplaced.root = parts.root := by
  funext operation usual
  unfold root
  rw [operations_unplaced]
  simp only [unplaced, List.isEmpty_map, List.any_map]
  rfl

end DocumentParts

/-- A document without places defines the same schema, or it fails with a fault of the same
kind. -/
theorem ofDocument_unplaced (source : Text) (document : List Document.Definition)
    (isTrusted : Bool) :
    Parallel SameKind Eq (ofDocument source document isTrusted)
      (ofDocument [] (document.map Document.Definition.unplaced) isTrusted) := by
  unfold ofDocument
  rw [DocumentParts.ofDefinitions_unplaced]
  dsimp only
  generalize DocumentParts.ofDefinitions document = parts
  have definitions : (⟨[], Named.ofList Document.TypeDefinition.name parts.unplaced.types,
      parts.unplaced.typeExtensions⟩ : Definitions) =
      Definitions.unplaced ⟨source, Named.ofList Document.TypeDefinition.name parts.types,
        parts.typeExtensions⟩ :=
    congrArg (Definitions.mk [] · parts.unplaced.typeExtensions)
      (Named.ofList_map (fun _ => rfl) parts.types)
  rw [definitions]
  generalize (⟨source, _, _⟩ : Definitions) = definitions
  have drafts := Parallel.mapM (List.forall₂_map_right_iff.mpr
    (List.forall₂_same.mpr fun definition (_ : definition ∈ parts.types) =>
      definitions.typeDraft_parallel definition))
  refine drafts.bind fun drafts drafts' alike => ?_
  rw [DocumentParts.operations_unplaced, Definitions.kindOf_unplaced]
  refine (Parallel.refl SameKind.refl _).bindSame fun _ => ?_
  have directives := Parallel.mapM_map definitions.directive_parallel parts.directives
  refine directives.bindSame fun directives => Draft.Alike.assemble ?_
  rw [DocumentParts.root_unplaced, DocumentParts.isEmpty_unplaced]
  refine ⟨?_, rfl, rfl, rfl, rfl, Named.forall₂_ofList (fun _ _ types => types.name) alike, rfl⟩
  simp only [DocumentParts.unplaced, List.getLast?_map]
  cases parts.schemas.getLast? <;> rfl

end Schema

end SchemaOrder
