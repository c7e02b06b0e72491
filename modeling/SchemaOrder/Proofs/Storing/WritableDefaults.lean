import SchemaOrder.Proofs.Schema.RereadDefaults
import SchemaOrder.Proofs.Sorting.SortedFitting
import SchemaOrder.Proofs.Storing.DescribedSkeletons
import SchemaOrder.Proofs.Storing.Resemblance

/-!
# Defaults that can be written

Nothing but a default keeps a schema from being written: an intact schema is written as a document
exactly if all its own defaults can be written. A schema that is described has such defaults, too,
and sorting a schema keeps them. Where they hold nothing that is lost in writing, each of them is
written as a literal that is read alike.
-/

namespace SchemaOrder

namespace Outcome

variable {ε α β : Type}

/-- A list gives results exactly if all its things do. -/
theorem exists_mapM_iff {compute : α → Except ε β} {things : List α} :
    (∃ results, things.mapM compute = .ok results) ↔
      ∀ thing ∈ things, ∃ result, compute thing = .ok result := by
  constructor
  · rintro ⟨results, computed⟩ thing mem
    obtain ⟨result, -, given⟩ := exists_of_mem_forall₂ (forall₂_of_mapM computed).flip mem
    exact ⟨result, given⟩
  · intro each
    induction things with
    | nil => exact ⟨[], rfl⟩
    | cons thing others inductionHypothesis =>
        obtain ⟨⟨result, given⟩, inOthers⟩ := List.forall_mem_cons.mp each
        obtain ⟨results, computed⟩ := inductionHypothesis inOthers
        exact ⟨result :: results, by rw [List.mapM_cons, given, computed]; rfl⟩

/-- What a failure is called does not matter for whether there is a result. -/
theorem exists_mapError_iff {ε' : Type} {computation : Except ε α} {rename : ε → ε'} :
    (∃ result, computation.mapError rename = .ok result) ↔ ∃ result, computation = .ok result :=
  exists_congr fun _ => mapError_eq_ok_iff

/-- A computation whose result is only changed gives one exactly if it does unchanged. -/
theorem exists_bind_pure_iff {first : Except ε α} {change : α → β} :
    (∃ result, (first >>= fun middle => pure (change middle)) = .ok result) ↔
      ∃ middle, first = .ok middle := by
  cases first with
  | ok middle => exact iff_of_true ⟨_, rfl⟩ ⟨middle, rfl⟩
  | error fault => exact iff_of_false nofun nofun

/-- Two computations whose results are only put together give one exactly if both do. -/
theorem exists_bind_bind_pure_iff {γ : Type} {first : Except ε α} {second : Except ε β}
    {change : α → β → γ} :
    (∃ result, (first >>= fun left => second >>= fun right => pure (change left right)) =
      .ok result) ↔ (∃ left, first = .ok left) ∧ ∃ right, second = .ok right := by
  cases first with
  | ok left => exact exists_bind_pure_iff.trans (by simp)
  | error fault => exact iff_of_false nofun nofun

end Outcome

namespace Schema

open Outcome
open Document (Literal)

variable {schema : Schema}

/-- An argument or an input field whose default can be written, if it has one. -/
def IsWritable (schema : Schema) (input : InputValue) : Prop :=
  ∃ text?, schema.defaultText input = .ok text?

/-- A schema whose defaults can be written, standard types and directives left aside. -/
def HasWritableDefaults (schema : Schema) : Prop :=
  ∀ input, schema.IsOwnInput input → schema.IsWritable input

section Writing

/-- An argument or an input field is written exactly if its default is. -/
theorem exists_writeInput_iff {input : InputValue} :
    (∃ text, schema.writeInput input = .ok text) ↔ schema.IsWritable input :=
  exists_bind_pure_iff

/-- The same on a line of its own. -/
theorem exists_writeInputLine_iff {indentation : Text} {isFirst : Bool} {input : InputValue} :
    (∃ text, schema.writeInputLine indentation isFirst input = .ok text) ↔
      schema.IsWritable input :=
  exists_bind_pure_iff.trans exists_writeInput_iff

/-- The parts of a block are written exactly if each of them is, first or not. -/
theorem exists_writeParts_iff {α : Type} {write : Bool → α → Except DefaultFault Text}
    {holds : α → Prop} {parts : List α}
    (each : ∀ isFirst part, (∃ text, write isFirst part = .ok text) ↔ holds part) :
    (∃ texts, writeParts write parts = .ok texts) ↔ ∀ part ∈ parts, holds part := by
  unfold writeParts
  rw [exists_mapM_iff]
  constructor
  · intro all part mem
    obtain ⟨index, bound, rfl⟩ := List.getElem_of_mem mem
    exact (each _ _).mp (all (parts[index], index) (List.mem_zipIdx_iff_getElem?.mpr (by simp)))
  · rintro all ⟨part, index⟩ mem
    exact (each _ _).mpr (all part (List.fst_mem_of_mem_zipIdx mem))

/-- Arguments are written exactly if the defaults of all of them are. -/
theorem exists_writeArguments_iff {indentation : Text} {arguments : List InputValue} :
    (∃ text, schema.writeArguments indentation arguments = .ok text) ↔
      ∀ argument ∈ arguments, schema.IsWritable argument := by
  unfold writeArguments
  split
  · next isEmpty =>
      rw [List.isEmpty_iff] at isEmpty
      exact iff_of_true ⟨_, rfl⟩ (isEmpty ▸ nofun)
  · split
    · rw [exists_bind_pure_iff, exists_mapM_iff]
      exact forall₂_congr fun _ _ => exists_writeInput_iff
    · rw [exists_bind_pure_iff]
      exact exists_writeParts_iff fun _ _ => exists_writeInputLine_iff

/-- A field is written exactly if the defaults of its arguments are. -/
theorem exists_writeField_iff {isFirst : Bool} {field : Field} :
    (∃ text, schema.writeField isFirst field = .ok text) ↔
      ∀ argument ∈ field.arguments, schema.IsWritable argument :=
  exists_bind_pure_iff.trans exists_writeArguments_iff

/-- A type is written exactly if the defaults of all its arguments and input fields are. -/
theorem exists_writeType_iff {type : NamedType} :
    (∃ text, schema.writeType type = .ok text) ↔
      ∀ input ∈ type.body.inputs, schema.IsWritable input := by
  have fields : ∀ fields : List Field, (∃ texts, writeParts schema.writeField fields = .ok texts) ↔
      ∀ input ∈ fields.flatMap Field.arguments, schema.IsWritable input := by
    intro fields
    have each : ∀ isFirst field, (∃ text, schema.writeField isFirst field = .ok text) ↔
        ∀ argument ∈ field.arguments, schema.IsWritable argument :=
      fun _ _ => exists_writeField_iff
    rw [exists_writeParts_iff each, List.forall_mem_flatMap]
  unfold writeType writeBody
  rw [exists_bind_pure_iff]
  cases type.body with
  | scalar | union => exact iff_of_true ⟨_, rfl⟩ nofun
  | object interfaces all | interface interfaces all =>
      exact exists_bind_pure_iff.trans (fields all)
  | enum values =>
      refine exists_bind_pure_iff.trans (iff_of_true ?_ nofun)
      exact (exists_writeParts_iff fun _ _ => iff_of_true ⟨_, rfl⟩ trivial).mpr fun _ _ => trivial
  | inputObject all oneOf =>
      exact exists_bind_pure_iff.trans (exists_writeParts_iff fun _ _ => exists_writeInputLine_iff)

/-- A directive is written exactly if the defaults of its arguments are. -/
theorem exists_writeDirective_iff {directive : Directive} :
    (∃ text, schema.writeDirective directive = .ok text) ↔
      ∀ argument ∈ directive.arguments, schema.IsWritable argument :=
  exists_bind_pure_iff.trans exists_writeArguments_iff

/-- An intact schema is written exactly if its own defaults are. -/
theorem Intact.exists_print_iff (intact : schema.Intact) :
    (∃ text, schema.print = .ok text) ↔ schema.HasWritableDefaults := by
  have directives : (∃ texts, schema.userDirectives.mapM (fun directive =>
      (schema.writeDirective directive).mapError PrintFault.default) = .ok texts) ↔
        ∀ directive ∈ schema.userDirectives, ∀ argument ∈ directive.arguments,
          schema.IsWritable argument := by
    rw [exists_mapM_iff]
    exact forall₂_congr fun _ _ => exists_mapError_iff.trans exists_writeDirective_iff
  have types : (∃ texts, (schema.index.filter fun entry => !isStandardType entry.name).mapM
      schema.writeEntry = .ok texts) ↔
        ∀ type ∈ schema.userTypes, ∀ input ∈ type.body.inputs, schema.IsWritable input := by
    rw [intact.writtenEntries_eq, exists_mapM_iff, List.forall_mem_map]
    exact forall₂_congr fun _ _ => exists_mapError_iff.trans exists_writeType_iff
  unfold print
  rw [exists_bind_bind_pure_iff, show schema.directives.filter _ = schema.userDirectives from rfl,
    directives, types]
  constructor
  · rintro ⟨inDirectives, inTypes⟩ input (⟨type, mem, ordinary, inType⟩ | ⟨directive, mem, ordinary,
      inDirective⟩)
    · exact inTypes type (intact.mem_userTypes (intact.type?_eq_some_iff.mpr ⟨mem, rfl⟩) ordinary)
        input inType
    · exact inDirectives directive (List.mem_filter.mpr ⟨mem, by simp [ordinary]⟩) input inDirective
  · intro all
    refine ⟨fun directive mem argument inDirective => all argument ?_,
      fun type mem input inType => all input ?_⟩
    · obtain ⟨inDirectives, ordinary⟩ := List.mem_filter.mp mem
      exact .inr ⟨directive, inDirectives, by simpa using ordinary, inDirective⟩
    · exact .inl ⟨type, intact.definedTypes_eq ▸ (List.mem_filter.mp mem).1,
        ordinary_of_userType mem, inType⟩

end Writing

section Describing

/-- Arguments and input fields that are described have defaults that can be written. -/
theorem isWritable_of_inputValues {inputs : List InputValue} {value : Json}
    (described : Describe.inputValues schema inputs = .ok value) :
    ∀ input ∈ inputs, schema.IsWritable input := by
  have all := exists_mapM_iff.mp (exists_bind_pure_iff.mp ⟨value, described⟩)
  exact fun input mem => exists_mapError_iff.mp (exists_bind_pure_iff.mp (all input mem))

/-- A type that is described has defaults that can be written. -/
theorem isWritable_of_namedType {type : NamedType} {flag value : Json}
    (described : Describe.namedType schema type flag = .ok value) :
    ∀ input ∈ type.body.inputs, schema.IsWritable input := by
  have inFields : ∀ {fields : List Field} {value : Json},
      Describe.fields schema fields = .ok value →
        ∀ input ∈ fields.flatMap Field.arguments, schema.IsWritable input := by
    intro fields value described input mem
    obtain ⟨field, fieldMem, inField⟩ := List.mem_flatMap.mp mem
    obtain ⟨result, isField⟩ :=
      exists_mapM_iff.mp (exists_bind_pure_iff.mp ⟨value, described⟩) field fieldMem
    obtain ⟨arguments, areArguments, -⟩ := bind_eq_ok_iff.mp isField
    exact isWritable_of_inputValues areArguments input inField
  rw [Describe.namedType_eq] at described
  obtain ⟨fields, areFields, rest⟩ := bind_eq_ok_iff.mp described
  obtain ⟨inputs, areInputs, -⟩ := bind_eq_ok_iff.mp rest
  cases isBody : type.body with
  | scalar | union | enum => nofun
  | object interfaces all | interface interfaces all =>
      rw [isBody] at areFields
      exact inFields areFields
  | inputObject all oneOf =>
      rw [isBody] at areInputs
      exact isWritable_of_inputValues areInputs

/-- An intact schema that is described has defaults that can be written. -/
theorem Intact.hasWritableDefaults_of_introspection (intact : schema.Intact) {value : Json}
    (described : schema.introspection = .ok value) : schema.HasWritableDefaults := by
  obtain ⟨-, -, indexed, flags, directiveValues, typeValues, areIndexed, areFlags, areDirectives,
    areTypes, -⟩ := introspection_eq_ok described
  obtain rfl := intact.indexed_eq areIndexed
  have zipped : (schema.types.zip flags).map Prod.fst = schema.types :=
    List.map_fst_zip (le_of_eq (forall₂_of_mapM areFlags).length_eq)
  rintro input (⟨type, mem, -, inType⟩ | ⟨directive, mem, -, inDirective⟩)
  · obtain ⟨entry, entryMem, rfl⟩ := List.mem_map.mp (zipped ▸ mem)
    obtain ⟨value, isType⟩ := exists_mapM_iff.mp ⟨_, areTypes⟩ entry entryMem
    exact isWritable_of_namedType isType input inType
  · obtain ⟨value, isDirective⟩ := exists_mapM_iff.mp ⟨_, areDirectives⟩ directive mem
    obtain ⟨arguments, areArguments, -⟩ := bind_eq_ok_iff.mp isDirective
    exact isWritable_of_inputValues areArguments input inDirective

end Describing

/-- The defaults of an arranged schema can be written where those of the schema can. -/
theorem HasWritableDefaults.arranged {order : NameOrder} {sorted : Schema}
    (writable : schema.HasWritableDefaults) (arranged : IsArranged order schema sorted) :
    sorted.HasWritableDefaults := fun input isOwn =>
  (arranged.sameInputs.defaultText_matches input).exists_ok_iff.mp
    (writable input (arranged.isOwnInput isOwn))

/-- An argument or an input field whose default is read as it is written: the default holds no
floating-point numbers, and no line feed stands behind the digits that are written of an
identifier. -/
def IsRereadable (schema : Schema) (input : InputValue) : Prop :=
  (∀ value ∈ input.default?, value.holdsFloat = false) ∧
    ∀ literal ∈ schema.writtenDefault input, literal.holdsFeed = false

instance (schema : Schema) : DecidablePred schema.IsRereadable :=
  fun _ => inferInstanceAs (Decidable (_ ∧ _))

/-- A schema whose own defaults are read as they are written. -/
def HasRereadableDefaults (schema : Schema) : Prop :=
  ∀ input, schema.IsOwnInput input → schema.IsRereadable input

/-- Whether all own defaults are read as they are written is seen from the types and the directives
of a schema. -/
theorem hasRereadableDefaults_iff : schema.HasRereadableDefaults ↔
    (∀ type ∈ schema.types, isStandardType type.name = false →
      ∀ input ∈ type.body.inputs, schema.IsRereadable input) ∧
    ∀ directive ∈ schema.directives, isStandardDirective directive.name = false →
      ∀ input ∈ directive.arguments, schema.IsRereadable input := by
  constructor
  · exact fun all => ⟨fun type mem ordinary input inType =>
        all input (.inl ⟨type, mem, ordinary, inType⟩),
      fun directive mem ordinary input inDirective =>
        all input (.inr ⟨directive, mem, ordinary, inDirective⟩)⟩
  · rintro ⟨inTypes, inDirectives⟩ input (⟨type, mem, ordinary, inType⟩ | ⟨directive, mem, ordinary,
      inDirective⟩)
    · exact inTypes type mem ordinary input inType
    · exact inDirectives directive mem ordinary input inDirective

instance (schema : Schema) : Decidable schema.HasRereadableDefaults :=
  decidable_of_iff _ hasRereadableDefaults_iff.symm

/-- No line feed comes to stand behind the digits of an identifier where the fields of objects are
put in another order. -/
theorem noFeed_of_rearranged {left right : Literal} (related : left.Rearranged right)
    (noFeed : left.holdsFeed = false) : right.holdsFeed = false := by
  induction related with
  | same => exact noFeed
  | list lengths _ inductionHypothesis =>
      rw [Literal.holdsFeed, Literal.itemsHoldFeed_eq, List.any_eq_false] at noFeed ⊢
      intro item mem
      obtain ⟨other, otherMem, beside⟩ := Literal.Rearranged.exists_beside lengths mem
      simpa using inductionHypothesis _ beside (by simpa using noFeed other otherMem)
  | object perm lengths _ _ inductionHypothesis =>
      rw [Literal.holdsFeed, Literal.fieldsHoldFeed_eq, List.any_eq_false] at noFeed ⊢
      intro field mem
      obtain ⟨other, otherMem, beside⟩ := Literal.Rearranged.exists_beside lengths mem
      simpa using inductionHypothesis _ beside
        (by simpa using noFeed other (perm.mem_iff.mpr otherMem))

/-- The defaults of an arranged schema are read as they are written where those of the schema
are. -/
theorem HasRereadableDefaults.arranged {order : NameOrder} {sorted : Schema}
    (rereadable : schema.HasRereadableDefaults) (arranged : IsArranged order schema sorted) :
    sorted.HasRereadableDefaults := by
  intro input isOwn
  obtain ⟨noFloat, noFeed⟩ := rereadable input (arranged.isOwnInput isOwn)
  refine ⟨noFloat, fun literal written => ?_⟩
  obtain ⟨other, isOther, related⟩ := arranged.sameInputs.exists_writtenDefault written
  exact noFeed_of_rearranged related (noFeed other isOther)

/-- A schema that is written so that everything can be read again as it is. -/
structure IsFaithful (schema : Schema) : Prop where
  intact : schema.Intact
  legible : schema.Legible
  fitting : schema.HasFittingDefaults
  writable : schema.HasWritableDefaults
  rereadable : schema.HasRereadableDefaults

/-- Every own default of a faithful schema is written as a literal that is read alike, where
coercion sees the input fields of the schema. -/
theorem IsFaithful.exists_writtenDefault (faithful : schema.IsFaithful) {ε : Type}
    {types : InputTypes ε} (shows : types.Show SameFields schema) {input : InputValue}
    (isOwn : schema.IsOwnInput input) {value : Value} (isDefault : input.default? = some value) :
    ∃ literal, schema.writtenDefault input = some literal ∧
      Coercion.ReadsAlike types input.type value literal := by
  obtain ⟨noFloat, noFeed⟩ := faithful.rereadable input isOwn
  obtain ⟨text?, written⟩ := faithful.writable input isOwn
  simp only [defaultText, isDefault] at written
  obtain ⟨literal?, isLiteral, -⟩ := bind_eq_ok_iff.mp written
  have isWritten : schema.writtenDefault input = literal? := by
    simp only [writtenDefault, isDefault, isLiteral, Except.toOption, Option.join_some]
  rw [isWritten] at noFeed ⊢
  have writes := (faithful.fitting input isOwn value isDefault).writesAlike
    (faithful.intact.hasSoundInputs faithful.legible) shows
  exact writes (noFloat value isDefault) literal? isLiteral noFeed

end Schema

end SchemaOrder
