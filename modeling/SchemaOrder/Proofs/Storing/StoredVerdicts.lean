import SchemaOrder.Proofs.Command.Tasks
import SchemaOrder.Proofs.Storing.DescribedSkeletons
import SchemaOrder.Proofs.Storing.DocumentSkeletons
import SchemaOrder.Proofs.Storing.WrittenFiles

/-!
# The check of stored schemas

The check looks at the layout of a schema, which its skeletons determine. Both formats keep the
skeletons of what a user has named, so that a schema that was stored and read again passes the
check exactly if it did before. A file that a conversion wrote holds a sorted schema, and what is
read of it passes the check by the order that the file was converted with.
-/

namespace SchemaOrder

open CodePoint (ofChar)

namespace Schema

open Outcome

/-- The layout of a type of a skeleton. -/
def TypeSkeleton.layout (type : TypeSkeleton) : TypeLayout :=
  match type.body with
  | .scalar => ⟨type.name, [], [], [], [], []⟩
  | .object interfaces fields | .interface interfaces fields =>
    ⟨type.name, interfaces, fields.map fun field =>
      (field.name, field.arguments.map InputSkeleton.name), [], [], []⟩
  | .union members => ⟨type.name, [], [], members, [], []⟩
  | .enum values => ⟨type.name, [], [], [], values, []⟩
  | .inputObject fields => ⟨type.name, [], [], [], [], fields.map InputSkeleton.name⟩

/-- The layout of a directive of a skeleton. -/
def DirectiveSkeleton.layout (directive : DirectiveSkeleton) : DirectiveLayout :=
  ⟨directive.name, directive.locations, directive.arguments.map InputSkeleton.name⟩

/-- The layout of a type is that of its skeleton. -/
theorem NamedType.layout_skeleton (type : NamedType) : type.skeleton.layout = type.layout := by
  obtain ⟨name, description, body⟩ := type
  have inputNames : ∀ inputs : List InputValue,
      (inputs.map InputValue.skeleton).map InputSkeleton.name = inputs.map InputValue.name :=
    fun inputs => List.map_map
  cases body with
  | scalar | union | enum => rfl
  | object interfaces fields | interface interfaces fields =>
      simp [NamedType.skeleton, Body.skeleton, TypeSkeleton.layout, NamedType.layout,
        NamedType.interfaces, NamedType.fields, NamedType.members, NamedType.values,
        NamedType.inputFields, Field.skeleton, inputNames]
  | inputObject fields oneOf =>
      simp [NamedType.skeleton, Body.skeleton, TypeSkeleton.layout, NamedType.layout,
        NamedType.interfaces, NamedType.fields, NamedType.members, NamedType.values,
        NamedType.inputFields, inputNames]

/-- The layout of a directive is that of its skeleton. -/
theorem Directive.layout_skeleton (directive : Directive) :
    directive.skeleton.layout = directive.layout := by
  simp [Directive.skeleton, DirectiveSkeleton.layout, Directive.layout, InputValue.skeleton,
    Function.comp_def]

/-- Schemas of the same skeletons have the same layout. -/
theorem userLayout_eq_of_userSkeletons {left right : Schema}
    (same : left.userSkeletons = right.userSkeletons) : left.userLayout = right.userLayout := by
  have ofSkeletons : ∀ schema : Schema, schema.userLayout =
      (schema.userSkeletons.1.map TypeSkeleton.layout,
        schema.userSkeletons.2.map DirectiveSkeleton.layout) := by
    intro schema
    simp only [userLayout, userSkeletons, List.map_map, Function.comp_def,
      NamedType.layout_skeleton, Directive.layout_skeleton]
  rw [ofSkeletons, ofSkeletons, same]

/-- A text that a schema was stored as, and the schema that is read from it. -/
inductive Stored (schema : Schema) (text : Text) (reread : Schema) : Prop where
  | document {isTrusted : Bool} (written : schema.documentText = .ok text)
      (isRead : Source.readDocument text isTrusted = .ok reread)
  | introspection (written : schema.introspectionText = .ok text)
      (isRead : Source.readIntrospection text = .ok reread)

namespace Stored

variable {schema reread : Schema} {text : Text}

/-- A text that names no file is read as what was stored in it. -/
theorem of_read {volume : Volume} (noFile : ∀ content, volume.read text ≠ .ok content)
    (given : (schema.documentText = .ok text ∧
        ∃ isTrusted, (Source.document text isTrusted).read volume = .ok reread) ∨
      (schema.introspectionText = .ok text ∧
        (Source.introspection text).read volume = .ok reread)) : Stored schema text reread := by
  rcases given with ⟨written, isTrusted, isRead⟩ | ⟨written, isRead⟩
  all_goals
    obtain ⟨source, isSource, reads⟩ := bind_eq_ok_iff.mp isRead
    rw [Source.pathOrText_of_noFile noFile] at isSource
    cases isSource
  · exact .document written reads
  · exact .introspection written reads

/-- What is read from a stored schema is intact. -/
theorem intact (stored : Stored schema text reread) : reread.Intact := by
  cases stored with
  | document written isRead =>
      obtain ⟨document, -, defined⟩ := Source.readDocument_eq_ok isRead
      exact ofDocument_intact defined
  | introspection written isRead =>
      obtain ⟨value, result, -, -, described⟩ := Source.readIntrospection_eq_ok isRead
      exact ofIntrospection_intact described

/-- Both formats keep the skeletons of what a user has named. -/
theorem userSkeletons_eq (stored : Stored schema text reread) (untampered : Untampered schema) :
    reread.userSkeletons = schema.userSkeletons := by
  cases stored with
  | document written isRead => exact (reread_of_readDocument untampered written isRead).1
  | introspection written isRead =>
      obtain ⟨value, described, reads⟩ :=
        readIntrospection_of_toIntrospection (mapError_eq_ok_iff.mp written)
      rw [reads, mapError_eq_ok_iff] at isRead
      obtain ⟨-, sameDirectives, sameTypes, -⟩ :=
        reread_of_introspection untampered.intact untampered.legible described isRead
      have types : ∀ {left : Schema}, left.Intact →
          left.userTypes.map NamedType.skeleton = (left.types.map NamedType.skeleton).filter
            fun type => !isIntrospectionType type.name && !isStandardScalar type.name := by
        intro left intact
        rw [userTypes, intact.definedTypes_eq, List.filter_map]
        rfl
      have directives : ∀ left : Schema,
          left.userDirectives.map Directive.skeleton =
            (left.directives.map Directive.skeleton).filter
              fun directive => !isStandardDirective directive.name := by
        intro left
        rw [userDirectives, List.filter_map]
        rfl
      rw [userSkeletons, userSkeletons, types (ofIntrospection_intact isRead),
        types untampered.intact, directives, directives, sameTypes, sameDirectives]

/-- By every order, what is read passes the check exactly if what was stored does. -/
theorem isSorted_eq (stored : Stored schema text reread) (untampered : Untampered schema)
    (order : NameOrder) : reread.isSorted order = schema.isSorted order := by
  rw [Bool.eq_iff_iff, isSorted_iff_layoutInOrder order stored.intact.closed.defined,
    isSorted_iff_layoutInOrder order untampered.intact.closed.defined,
    userLayout_eq_of_userSkeletons (stored.userSkeletons_eq untampered)]

end Stored

end Schema

/-- The name under which a program writes a format. -/
def Format.outputName : Format → Text
  | .document => "sdl"
  | .introspection => "json"

/-- The text of an untampered schema breaks its lines at line feeds alone. -/
theorem Schema.noReturn_write {format : Format} {schema : Schema} {text : Text}
    (untampered : Untampered schema) (isText : schema.write format.outputName = .ok text) :
    ofChar '\r' ∉ text := by
  cases format with
  | document =>
      have written : schema.toDocument = .ok text := Outcome.mapError_eq_ok_iff.mp isText
      exact (closedPiece_toDocument untampered.isReadable written).noReturn
  | introspection =>
      have written : schema.toIntrospection = .ok text := Outcome.mapError_eq_ok_iff.mp isText
      obtain ⟨value, described, rfl⟩ := toIntrospection_eq_ok_iff.mp written
      rw [List.mem_append, not_or]
      exact ⟨(isPlain_introspection described).noReturn 0, by decide⟩

namespace Task

open Schema

/-- What is read of a file that was written in the same format is what its schema was stored as. -/
theorem stored_of_write {format : Format} {schema reread : Schema} {volume after : Volume}
    {path text : Text} {content : Bytes} (untampered : Untampered schema)
    (isText : schema.write format.outputName = .ok text) (encoded : text.encode = .ok content)
    (written : volume.write path content = .ok after)
    (isRead : (Source.file path format).read after = .ok reread) :
    Stored schema text reread := by
  obtain ⟨read, isFile, reads⟩ := Outcome.bind_eq_ok_iff.mp isRead
  rw [Source.fileText_of_write (noReturn_write untampered isText) encoded written] at isFile
  cases isFile
  cases format with
  | document => exact .document isText reads
  | introspection => exact .introspection isText reads

/-- The file that a conversion wrote, if it can be read in the format in which it was written,
passes the check by the options of the conversion. -/
theorem isSorted_of_convert {collation : Collation} {conversion : Conversion} {format : Format}
    {output result : Text} {desk after : Desk} {reread : Schema}
    (isOutput : conversion.output = some output) (nonempty : output ≠ [])
    (isFormat : conversion.outputFormat = format.outputName)
    (converted : convert collation conversion desk = (.ok result, after))
    (isRead : (Source.file output format).read after.volume = .ok reread) (other : Desk) :
    (isSorted collation conversion.options reread other).1 = .ok true := by
  obtain ⟨schema, order, sorted, made, emptied, content, isInput, isOrder, sorts, isText, -, -,
    encoded, isWritten⟩ := (convert_eq_ok_iff isOutput nonempty).mp ⟨after, converted, rfl⟩
  have untampered : Untampered sorted := .sort (.read isInput)
    (show schema.sortedBy collation (.byOrder order) = .ok sorted from sorts)
  have inOrder := userLayout_inOrder_of_sort (Source.read_intact isInput).unique
    (Outcome.mapError_eq_ok_iff.mp sorts)
  have passes : sorted.isSorted order = true :=
    (isSorted_iff_layoutInOrder order untampered.intact.closed.defined).mpr inOrder
  have stored := stored_of_write untampered (isFormat ▸ isText) encoded isWritten isRead
  rw [(isSorted_looks conversion.options reread).outcome, isOrder]
  exact congrArg Except.ok ((stored.isSorted_eq untampered order).trans passes)

end Task

namespace Schema

open Outcome

/-- A schema that came about without tampering, stored in either format and read again, passes the
check by the same comparisons as before, and fails it by the same ones. What a conversion wrote to a
file, if it can be read in the format in which it was written, passes the check by the options of
the conversion. -/
theorem storing_keeps_verdict :
    (∀ (schema reread : Schema) (volume : Volume) (text : Text), Untampered schema →
      (∀ content, volume.read text ≠ .ok content) →
      (schema.documentText = .ok text ∧
          ∃ isTrusted, (Source.document text isTrusted).read volume = .ok reread) ∨
        (schema.introspectionText = .ok text ∧
          (Source.introspection text).read volume = .ok reread) →
      ∀ collation comparison,
        reread.isSortedBy collation comparison = schema.isSortedBy collation comparison) ∧
    ∀ (collation : Collation) (conversion : Conversion) (format : Format) (output result : Text)
      (desk after : Desk) (reread : Schema), conversion.output = some output → output ≠ [] →
      conversion.outputFormat = format.outputName →
      Task.convert collation conversion desk = (.ok result, after) →
      (Source.file output format).read after.volume = .ok reread →
      ∀ other, (Task.isSorted collation conversion.options reread other).1 = .ok true := by
  constructor
  · intro schema reread volume text untampered noFile given collation comparison
    have stored : Stored schema text reread := .of_read noFile given
    unfold isSortedBy
    cases comparison.nameOrder collation with
    | error fault => rfl
    | ok order => exact congrArg Except.ok (stored.isSorted_eq untampered order)
  · intro collation conversion format output result desk after reread isOutput nonempty isFormat
      converted isRead
    exact Task.isSorted_of_convert isOutput nonempty isFormat converted isRead

/-- A document with fields that are not in order. -/
def pairDocument : Text :=
  "type Query { b: Int a: Int }"

/-- A desk with a file that holds the document. -/
def pairDesk : Desk :=
  ⟨⟨[], [([Text.ofString "pair.graphql"], .file (Text.encodeLoosely pairDocument))]⟩, [], []⟩

/-- The conversion of the file by code point. -/
def pairConversion : Conversion :=
  ⟨"pair.graphql", some (Text.ofString "sorted.graphql"), "sdl", none, .known none⟩

/-- The document with its fields in order. -/
def sortedPairDocument : Text :=
  "type Query \x7b\n  a: Int\n  b: Int\n\x7d\n"

/-- The type of the document, with its fields. -/
def pairType (fields : List Field) : NamedType :=
  ⟨"Query", none, .object [] fields⟩

/-- A field that holds a number. -/
def pairField (name : Text) : Field :=
  ⟨name, .named "Int", [], none, none⟩

/-- Whether a schema is what the document defines. -/
def isPair (schema : Schema) : Bool :=
  match schema.userTypes, schema.userDirectives with
  | [⟨query, none, .object [] [⟨first, firstType, [], none, none⟩,
      ⟨second, secondType, [], none, none⟩]⟩], [] =>
    query = "Query" && first = "b" && second = "a" && firstType = .named "Int" &&
      secondType = .named "Int" && schema.description.isNone &&
      schema.roots = [some (Text.ofString "Query"), none, none]
  | _, _ => false

/-- What the document defines, part by part. -/
theorem parts_of_isPair {schema : Schema} (pair : isPair schema = true) :
    schema.userTypes = [pairType [pairField "b", pairField "a"]] ∧ schema.userDirectives = [] ∧
      schema.description = none ∧ schema.roots = [some (Text.ofString "Query"), none, none] := by
  unfold isPair at pair
  split at pair
  · next types directives =>
    simp only [Bool.and_eq_true, decide_eq_true_eq, Option.isNone_iff_eq_none, and_assoc] at pair
    obtain ⟨rfl, rfl, rfl, rfl, rfl, description, roots⟩ := pair
    exact ⟨types, directives, description, roots⟩
  · cases pair

/-- The sorted copy of what the document defines is written with its fields in order. -/
theorem write_of_isPair {schema sorted : Schema} (intact : schema.Intact)
    (pair : isPair schema = true) (sorts : schema.sort .byCodePoint = .ok sorted) :
    sorted.write "sdl" = .ok sortedPairDocument := by
  obtain ⟨types, directives, description, roots⟩ := parts_of_isPair pair
  have fields : arrangedFields .byCodePoint [pairField "b", pairField "a"] =
      [pairField "a", pairField "b"] := by
    rw [arrangedFields, NameOrder.sort_eq_of_perm NameOrder.byCodePoint_tellsApart (by decide)
      (.swap ..), NameOrder.sort_eq_self (List.pairwise_pair.mpr (by decide))]
    simp [Field.arranged, pairField]
  have arranged : (pairType [pairField "b", pairField "a"]).arranged .byCodePoint =
      pairType [pairField "a", pairField "b"] := by
    rw [NamedType.arranged_of_not_introspection (by decide), pairType, Body.arranged, fields,
      NameOrder.sortNames, NameOrder.sort_nil]
    rfl
  have sortedTypes : sorted.userTypes = [pairType [pairField "a", pairField "b"]] := by
    rw [userTypes_of_sort intact.unique sorts, types,
      NameOrder.sort_eq_self (List.pairwise_singleton ..), List.map_singleton, arranged]
  have entries := userEntries_eq_map_userTypes (intact.sort sorts).closed.defined
  rw [sortedTypes] at entries
  have sortedDirectives := userDirectives_of_sort intact.unique sorts
  rw [directives, NameOrder.sort_nil, List.map_nil] at sortedDirectives
  obtain ⟨-, _, -, -, isSorted⟩ := (sort_eq_ok_iff intact.unique).mp sorts
  have noSchema : sorted.writeSchema = none := by
    have sameRoots : sorted.roots = schema.roots := by rw [isSorted]; rfl
    have sameDescription : sorted.description = schema.description := by rw [isSorted]; rfl
    rw [writeSchema, hasUsualRoots, sameRoots, sameDescription, roots, description]
    rfl
  rw [Schema.write, if_pos rfl, toDocument, print,
    show sorted.directives.filter _ = _ from sortedDirectives,
    show sorted.index.filter _ = _ from entries, noSchema]
  rfl

/-- The conversion of the file writes the document in order, which can be read again. -/
theorem convert_pairDesk : ∃ schema after reread,
    (Source.namedFormat pairConversion.input pairConversion.inputFormat).read pairDesk.volume =
      .ok schema ∧
    Task.convert AsciiCollation.key pairConversion pairDesk = (.ok sortedPairDocument, after) ∧
    (Source.file "sorted.graphql" .document).read after.volume = .ok reread := by
  have succeeds : (do
      let schema ← (Source.namedFormat pairConversion.input none).read pairDesk.volume
      let ⟨⟩ ← (pairDesk.volume.makeDirectories ".").2.mapError .file
      let emptied ← ((pairDesk.volume.makeDirectories ".").1.write "sorted.graphql" []).mapError
        .file
      let content ← sortedPairDocument.encode.mapError .encoding
      let written ← (emptied.write "sorted.graphql" content).mapError .file
      let _ ← (Source.file "sorted.graphql" .document).read written
      return isPair schema : Except Fault Bool).toOption = some true := by
    decide +kernel
  obtain ⟨schema, isRead, rest⟩ := bind_eq_ok_iff.mp (eq_ok_of_toOption succeeds)
  obtain ⟨⟨⟩, isMade, rest⟩ := bind_eq_ok_iff.mp rest
  obtain ⟨emptied, isEmptied, rest⟩ := bind_eq_ok_iff.mp rest
  obtain ⟨content, encoded, rest⟩ := bind_eq_ok_iff.mp rest
  obtain ⟨written, isWritten, rest⟩ := bind_eq_ok_iff.mp rest
  obtain ⟨reread, isReread, pair⟩ := bind_eq_ok_iff.mp rest
  rw [mapError_eq_ok_iff] at isMade isEmptied encoded isWritten
  have intact := Source.read_intact isRead
  obtain ⟨sorted, sorts, -⟩ := intact.sorts .byCodePoint
  have isText := write_of_isPair intact (pure_eq_ok_iff.mp pair) sorts
  have converts := @Task.convert_eq_ok_iff pairDesk AsciiCollation.key pairConversion
    "sorted.graphql" sortedPairDocument written rfl (by decide)
  obtain ⟨after, converted, rfl⟩ := converts.mpr ⟨schema, .byCodePoint, sorted, _, emptied,
    content, isRead, rfl, mapError_eq_ok_iff.mpr sorts, isText, Prod.ext rfl isMade, isEmptied,
    encoded, isWritten⟩
  exact ⟨schema, after, reread, isRead, converted, isReread⟩

/-- A small schema that is not in order is still not in order when its document or its description
is read, and a converted file is in order. -/
theorem storing_keeps_verdict_starterDocument :
    (∃ schema document ofDocument description ofDescription,
      (Source.document starterDocument false).read noFiles = .ok schema ∧
      schema.documentText = .ok document ∧
      (Source.document document false).read noFiles = .ok ofDocument ∧
      schema.introspectionText = .ok description ∧
      (Source.introspection description).read noFiles = .ok ofDescription ∧
      ofDocument.isSortedBy AsciiCollation.key (.options .null) = .ok false ∧
      ofDescription.isSortedBy AsciiCollation.key (.options .null) = .ok false) ∧
    ∃ after reread,
      Task.convert AsciiCollation.key pairConversion pairDesk = (.ok sortedPairDocument, after) ∧
      (Source.file "sorted.graphql" .document).read after.volume = .ok reread ∧
      (Task.isSorted AsciiCollation.key pairConversion.options reread after).1 = .ok true := by
  constructor
  · have succeeds : (do
        let schema ← (Source.document starterDocument false).read noFiles
        let document ← schema.documentText
        let _ ← (Source.document document false).read noFiles
        let _ ← schema.introspectionText
        let value ← schema.introspection.mapError .description
        let _ ← (ofIntrospection value).mapError .schema
        schema.isSortedBy AsciiCollation.key (.options .null) : Except Fault Bool).toOption =
          some false := by
      decide +kernel
    obtain ⟨schema, isRead, rest⟩ := bind_eq_ok_iff.mp (eq_ok_of_toOption succeeds)
    obtain ⟨document, written, rest⟩ := bind_eq_ok_iff.mp rest
    obtain ⟨ofDocument, isReread, rest⟩ := bind_eq_ok_iff.mp rest
    obtain ⟨description, described, rest⟩ := bind_eq_ok_iff.mp rest
    obtain ⟨value, isValue, rest⟩ := bind_eq_ok_iff.mp rest
    obtain ⟨ofDescription, isDescribed, unsorted⟩ := bind_eq_ok_iff.mp rest
    obtain ⟨_, isSame, reads⟩ := read_of_introspectionText described (noFiles_read description)
    obtain rfl := Except.ok.inj (isSame.symm.trans (mapError_eq_ok_iff.mp isValue))
    rw [← reads] at isDescribed
    have keeps := storing_keeps_verdict.1 schema
    refine ⟨schema, document, ofDocument, description, ofDescription, isRead, written, isReread,
      described, isDescribed, ?_, ?_⟩
    · exact (keeps ofDocument noFiles document (.read isRead) (noFiles_read document)
        (.inl ⟨written, false, isReread⟩) _ _).trans unsorted
    · exact (keeps ofDescription noFiles description (.read isRead) (noFiles_read description)
        (.inr ⟨described, isDescribed⟩) _ _).trans unsorted
  · obtain ⟨_, after, reread, -, converted, isReread⟩ := convert_pairDesk
    exact ⟨after, reread, converted, isReread,
      storing_keeps_verdict.2 _ pairConversion .document _ _ _ after reread rfl (by decide) rfl
        converted isReread after⟩

end Schema

end SchemaOrder
