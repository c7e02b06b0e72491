import SchemaOrder.Order.AsciiCollation
import SchemaOrder.Proofs.Schema.DescribedReferences
import SchemaOrder.Proofs.Schema.DocumentReferences
import SchemaOrder.Proofs.Sorting.SortedCopy
import SchemaOrder.Proofs.Storing.WrittenFiles
import SchemaOrder.Session

/-!
# Untampered schemas

Schemas come from documents and introspection results, and out of other schemas by sorting them
and by storing and reading them again. `Untampered.intact` carries what holds of every schema that
is read through all of these steps; `sort_of_untampered` concludes that sorting never fails on such
a schema, whatever was done with it before, that it mixes no original with what takes its place,
and that it leaves the set of type names as it is.
-/

namespace SchemaOrder

open Schema Sorter Outcome

/-- A schema that came about by reading, sorting, storing and validating alone. Every step may be
done with its own files and its own collation. -/
inductive Untampered : Schema → Prop where
  | read {volume : Volume} {source : Source} {schema : Schema}
      (given : source.read volume = .ok schema) : Untampered schema
  | sort {collation : Collation} {comparison : Comparison} {schema sorted : Schema}
      (earlier : Untampered schema) (given : schema.sortedBy collation comparison = .ok sorted) :
      Untampered sorted
  | rereadDocument {volume : Volume} {text : Text} {schema reread : Schema}
      (earlier : Untampered schema) (written : schema.documentText = .ok text)
      (given : (Source.document text false).read volume = .ok reread) : Untampered reread
  | rereadIntrospection {volume : Volume} {text : Text} {schema reread : Schema}
      (earlier : Untampered schema) (described : schema.introspectionText = .ok text)
      (given : (Source.introspection text).read volume = .ok reread) : Untampered reread
  | validate {schema : Schema} (earlier : Untampered schema) : Untampered schema.validated

/-- A text that names no file is taken for what it is. -/
theorem Source.pathOrText_of_noFile {volume : Volume} {text : Text}
    (noFile : ∀ content, volume.read text ≠ .ok content) : pathOrText volume text = .ok text := by
  unfold pathOrText
  cases isRead : volume.read text with
  | ok content => exact absurd isRead (noFile content)
  | error fault => rfl

/-- What a schema that was read was made of: a document, or a description. -/
inductive Source.Made (schema : Schema) : Prop where
  | ofDocument {text : Text} {document : List Document.Definition} {isTrusted : Bool}
      (parsed : Document.parse text = .ok document)
      (defined : Schema.ofDocument text document isTrusted = .ok schema) : Made schema
  | ofIntrospection {result : Json} (described : Schema.ofIntrospection result = .ok schema) :
      Made schema

/-- The schema that the text of a document is read as is what its definitions make. -/
theorem Source.readDocument_eq_ok {text : Text} {isTrusted : Bool} {schema : Schema}
    (given : readDocument text isTrusted = .ok schema) :
    ∃ document, Document.parse text = .ok document ∧
      Schema.ofDocument text document isTrusted = .ok schema := by
  obtain ⟨document, parsed, rest⟩ := bind_eq_ok_iff.mp given
  refine ⟨document, mapError_eq_ok_iff.mp parsed, ?_⟩
  have accepted : ∀ breaches : List Document.Breach,
      (if breaches.isEmpty then (ofDocument text document isTrusted).mapError .schema
        else .error (.schema (.forbidden (breaches.map Document.Breach.message)))) =
          (.ok schema : Except Fault Schema) → ofDocument text document isTrusted = .ok schema := by
    intro breaches admitted
    split at admitted
    · exact mapError_eq_ok_iff.mp admitted
    · cases admitted
  exact accepted _ rest

/-- The schema that a text is read as is what its description describes. -/
theorem Source.readIntrospection_eq_ok {text : Text} {schema : Schema}
    (given : readIntrospection text = .ok schema) :
    ∃ value result, Json.parse text = .ok value ∧ introspectionResult value = .ok result ∧
      Schema.ofIntrospection result = .ok schema := by
  obtain ⟨value, parsed, rest⟩ := bind_eq_ok_iff.mp given
  obtain ⟨result, isResult, described⟩ := bind_eq_ok_iff.mp rest
  exact ⟨value, result, mapError_eq_ok_iff.mp parsed, isResult, mapError_eq_ok_iff.mp described⟩

/-- Whatever source a schema is read from, it was made of a document or of a description. -/
theorem Source.made_of_read {volume : Volume} {source : Source} {schema : Schema}
    (given : source.read volume = .ok schema) : Made schema := by
  have ofDocumentText : ∀ {text isTrusted}, readDocument text isTrusted = .ok schema →
      Made schema := by
    intro text isTrusted isRead
    obtain ⟨document, parsed, defined⟩ := readDocument_eq_ok isRead
    exact .ofDocument parsed defined
  have ofIntrospectionText : ∀ {text}, readIntrospection text = .ok schema → Made schema := by
    intro text isRead
    obtain ⟨value, result, -, -, described⟩ := readIntrospection_eq_ok isRead
    exact .ofIntrospection described
  have ofFile : ∀ {path format}, readFile volume path format = .ok schema → Made schema := by
    intro path format isRead
    obtain ⟨text, -, rest⟩ := bind_eq_ok_iff.mp isRead
    cases format with
    | document => exact ofDocumentText rest
    | introspection => exact ofIntrospectionText rest
  cases source with
  | document pathOrText isTrusted =>
      obtain ⟨text, -, isRead⟩ := bind_eq_ok_iff.mp given
      exact ofDocumentText isRead
  | introspection pathOrText =>
      obtain ⟨text, -, isRead⟩ := bind_eq_ok_iff.mp given
      exact ofIntrospectionText isRead
  | file path format => exact ofFile given
  | namedFormat path name =>
      obtain ⟨format, -, isRead⟩ := bind_eq_ok_iff.mp given
      exact ofFile isRead

/-- The schema that is read from any source is intact. -/
theorem Source.read_intact {volume : Volume} {source : Source} {schema : Schema}
    (given : source.read volume = .ok schema) : schema.Intact := by
  cases made_of_read given with
  | ofDocument _ defined => exact ofDocument_intact defined
  | ofIntrospection described => exact ofIntrospection_intact described

namespace Schema

variable {schema sorted : Schema} {order : NameOrder}

namespace Intact

/-- The draft of the sorted copy of an intact schema refers to nothing that it does not list. -/
theorem arrangedDraft_supported (intact : schema.Intact) (order : NameOrder) :
    (arrangedDraft order schema).Supported := by
  obtain ⟨typesClosed, ownClosed⟩ := arrangedDraft_closed order intact.closed
  have sameNames : (arrangedDraft order schema).types.map TypeDraft.name =
      (schema.arrangedTypes order).map NamedType.name := by
    simp [arrangedDraft]
  refine ⟨?_, ?_, ?_, fun name mem => .inl (sameNames ▸ ownClosed name mem)⟩
  · rw [sameNames]
    exact (nodup_arrangedTypes order).mpr (nodup_definedTypes intact.unique)
  · intro draft mem standard isStandard
    obtain ⟨arranged, arrangedMem, rfl⟩ := List.mem_map.mp mem
    obtain ⟨type, typeMem, rfl⟩ := List.mem_map.mp arrangedMem
    rw [TypeDraft.name_ofType, NamedType.name_arranged] at isStandard
    obtain rfl := intact.standard type (NameOrder.mem_sort.mp typeMem) standard isStandard
    rw [NamedType.arranged_of_standard (Standard.type?_eq_some isStandard).1]
  · intro draft mem names stage name nameMem
    obtain ⟨type, typeMem, rfl⟩ := List.mem_map.mp mem
    have isReference := TypeDraft.mem_references_iff.mpr ⟨names, stage, nameMem⟩
    exact .inl (sameNames ▸ typesClosed type typeMem name isReference)

/-- The sorted copy of an intact schema is intact. -/
theorem sort (intact : schema.Intact) (sorts : schema.sort order = .ok sorted) :
    sorted.Intact := by
  rw [sort_eq_assemble (nodup_definedTypes intact.unique) intact.closed.resolvable] at sorts
  exact Draft.assemble_intact (intact.arrangedDraft_supported order) sorts

/-- The standard objects under names of an intact schema are in the index of replacements. -/
theorem inLibrary_mem_sortedIndex (intact : schema.Intact) {name : Text}
    (isStandard : isStandardType name = true) (mem : name ∈ schema.typeNames) :
    .inLibrary name ∈ sortedIndex order schema := by
  rw [typeNames_eq_map_definedTypes intact.closed.defined] at mem
  obtain ⟨type, typeMem, rfl⟩ := List.mem_map.mp mem
  rw [← targetOf_eq_inLibrary_iff.mpr ⟨rfl, isStandard⟩]
  exact List.mem_map_of_mem (NameOrder.mem_sort.mpr typeMem)

/-- What an introspection type of an intact schema refers to is standard. -/
theorem isStandardType_of_introspection (intact : schema.Intact) {type : NamedType}
    (mem : type ∈ schema.definedTypes) (introspection : isIntrospectionType type.name = true)
    {name : Text} (isReference : name ∈ type.references) : isStandardType name = true := by
  have isStandard : (Standard.type? type.name).isSome := by
    rw [isSome_standardType?, isStandardType, introspection, Bool.or_true]
  obtain ⟨standard, found⟩ := Option.isSome_iff_exists.mp isStandard
  obtain rfl := intact.standard type mem standard found
  rw [← isSome_standardType?]
  exact Standard.references_standard (Standard.type?_eq_some found).1 isReference

/-- The draft of the sorted copy of an intact schema holds all objects that are linked to. -/
theorem arrangedObjects_isClosed (intact : schema.Intact) (order : NameOrder) :
    (arrangedObjects order schema).IsClosed := by
  have closed := intact.closed
  have known {name : Text} (mem : name ∈ schema.typeNames) :
      leadsIn (sortedIndex order schema) name ∈ sortedIndex order schema :=
    leadsIn_mem ((mem_names_sortedIndex closed.defined).mpr mem)
  refine ⟨?_, ?_, ?_⟩
  · have sameNames : (arrangedObjects order schema).objects.map TypeObject.name =
        (sortedIndex order schema).map Target.name := by
      rw [← map_target_arrangedObjects, List.map_map]
      rfl
    rw [sameNames]
    exact sortedIndex_unique (nodup_definedTypes intact.unique)
  · intro target mem
    rw [map_target_arrangedObjects]
    rcases of_mem_targets mem with ⟨name, isOwn, rfl⟩ | rfl
    · exact known (closed.resolvable.own isOwn)
    · exact intact.inLibrary_mem_sortedIndex rfl intact.describes
  · intro object objectMem stage stageMem
    rw [map_target_arrangedObjects]
    obtain ⟨type, typeMem, rfl⟩ := List.mem_map.mp objectMem
    have isType := NameOrder.mem_sort.mp typeMem
    unfold arrangedObject at stageMem
    -- an introspection type leads to its likes in the library, all others to what the index has
    cases introspection : isIntrospectionType type.name with
    | true =>
        rw [introspection, if_pos rfl] at stageMem
        obtain ⟨targets, rfl⟩ := TypeObject.exists_of_mem_stages_ofType stageMem
        refine ⟨targets, rfl, fun target mem => ?_⟩
        obtain ⟨name, isReference, rfl⟩ := TypeObject.of_mem_stages_ofType stageMem mem
        exact intact.inLibrary_mem_sortedIndex
          (intact.isStandardType_of_introspection isType introspection isReference)
          (closed.types type isType name isReference)
    | false =>
        rw [introspection, if_neg Bool.false_ne_true] at stageMem
        obtain ⟨targets, rfl⟩ := TypeObject.exists_of_mem_stages_ofType stageMem
        refine ⟨targets, rfl, fun target mem => ?_⟩
        obtain ⟨name, isReference, rfl⟩ := TypeObject.of_mem_stages_ofType stageMem mem
        exact known
          (closed.types type isType name (NamedType.mem_references_arranged.mp isReference))

/-- An intact schema has a sorted copy, which holds types of the same names. -/
theorem sorts (intact : schema.Intact) (order : NameOrder) :
    ∃ sorted, schema.sort order = .ok sorted ∧ sorted.typeNames.Perm schema.typeNames := by
  obtain ⟨added, sorts, -, -, nothing⟩ := sort_of_closed order intact.closed intact.unique
  refine ⟨_, sorts, ?_⟩
  rw [nothing.mpr intact.describes, List.append_nil, Draft.typeNames_withTypes,
    map_name_arrangedTypes, ← typeNames_eq_map_definedTypes intact.closed.defined]
  exact NameOrder.sort_perm order id _

/-- Validation looks at a schema without touching what it holds. -/
theorem validated (intact : schema.Intact) : schema.validated.Intact :=
  ⟨intact.index, intact.unique, ⟨intact.closed.defined, intact.closed.types,
    intact.closed.directives, intact.closed.roots⟩, intact.standard, intact.describes⟩

end Intact

end Schema

/-- A schema that came about without tampering is intact. -/
theorem Untampered.intact {schema : Schema} (untampered : Untampered schema) : schema.Intact := by
  induction untampered with
  | read given => exact Source.read_intact given
  | sort _ given inductionHypothesis =>
      obtain ⟨order, -, sorts⟩ := bind_eq_ok_iff.mp given
      exact inductionHypothesis.sort (mapError_eq_ok_iff.mp sorts)
  | rereadDocument _ _ given => exact Source.read_intact given
  | rereadIntrospection _ _ given => exact Source.read_intact given
  | validate _ inductionHypothesis => exact inductionHypothesis.validated

namespace Schema

/-- A schema that came about without tampering is closed: its index holds types of different
names, all of them of kinds, and everything that one of them, an argument of a directive or an
operation refers to. A type under a standard name is the standard type.

Sorting makes one object for every type of the index, and nothing that these objects or the copy
itself lead to is another object: no link is left that leads to an original in whose place there is
a new one. So exactly these objects are collected, no two of them have one name, and the copy is
refused for no repeated name, for no unknown one, and for no entry of no kind. Sorting succeeds by
every order of names and by all options that stand for one, and the copy holds types of the same
names. -/
theorem sort_of_untampered {schema : Schema} (untampered : Untampered schema) :
    schema.Closed ∧ schema.typeNames.Nodup ∧
      (∀ type ∈ schema.definedTypes, ∀ standard,
        Standard.type? type.name = some standard → type = standard) ∧
      (∀ order, ∃ draft, sortedDraft order schema = .ok draft ∧
        draft.objects.map TypeObject.target =
          (order.sort NamedType.name schema.definedTypes).map targetOf ∧
        draft.IsClosed ∧ draft.collect = .ok draft.objects) ∧
      (∀ order name, schema.sort order ≠ .error (.repeatedType name) ∧
        schema.sort order ≠ .error (.unknownType name) ∧
        schema.sort order ≠ .error (.unexpectedKind name)) ∧
      (∀ order, ∃ sorted, schema.sort order = .ok sorted ∧
        sorted.typeNames.Perm schema.typeNames) ∧
      ∀ collation comparison order, Comparison.nameOrder collation comparison = .ok order →
        ∃ sorted, schema.sortedBy collation comparison = .ok sorted ∧
          sorted.typeNames.Perm schema.typeNames := by
  have intact := untampered.intact
  refine ⟨intact.closed, intact.unique, intact.standard, ?_, ?_, intact.sorts, ?_⟩
  · intro order
    have drafted : sortedDraft order schema = .ok (arrangedObjects order schema) :=
      (sortedDraft_eq_ok_iff (nodup_definedTypes intact.unique)).mpr
        ⟨intact.closed.resolvable, rfl⟩
    have closed := intact.arrangedObjects_isClosed order
    exact ⟨_, drafted, map_target_arrangedObjects, closed,
      ObjectDraft.collect_of_isClosed closed⟩
  · intro order name
    obtain ⟨sorted, sorts, -⟩ := intact.sorts order
    simp [sorts]
  · intro collation comparison order isOrder
    obtain ⟨sorted, sorts, sameNames⟩ := intact.sorts order
    refine ⟨sorted, ?_, sameNames⟩
    rw [sortedBy, isOrder]
    exact mapError_eq_ok_iff.mpr sorts

/-- A document whose schema has an object, an input object with a default, and an enum. -/
def starterDocument : Text :=
  "type Query { color(shade: Shade = {red: 1, blue: 2}, of: Color): Color age: Int } " ++
    "input Shade { red: Int blue: Int } enum Color { RED BLUE }"

/-- A volume without files. -/
def noFiles : Volume :=
  ⟨[], []⟩

/-- Without files, no path leads to one. -/
theorem noFile_of_follow {place : List Text} {names : List Text} {found : List Text × Option Node}
    (followed : noFiles.follow place names = .ok found) (content : Bytes) :
    found.2 ≠ some (.file content) := by
  have isDirectory : ∀ place, noFiles.at? place ≠ some (.file content) := by
    intro place
    unfold Volume.at?
    split <;> nofun
  rw [Volume.eq_at?_of_follow followed]
  exact isDirectory found.1

/-- Without files, nothing is read as one. -/
theorem noFiles_read (path : Text) (content : Bytes) : noFiles.read path ≠ .ok content := by
  intro isRead
  obtain ⟨⟨place, node?⟩, found, rest⟩ := bind_eq_ok_iff.mp isRead
  obtain ⟨⟨⟩, -, found⟩ := bind_eq_ok_iff.mp found
  have noFile : ∀ content, node? ≠ some (.file content) := by
    intro content
    split at found
    · cases found
    split at found
    · cases found
    split at found
    · cases found
    · next followed => exact absurd rfl (noFile_of_follow followed _)
    · next followed =>
        cases found
        exact noFile_of_follow followed content
  match node?, rest with
  | some (.file other), _ => exact noFile other rfl

/-- The document is read, the schema is sorted by the length of names, and what comes out can be
sorted again, by any order. -/
theorem sort_of_starterDocument :
    ∃ schema sorted, (Source.document starterDocument false).read noFiles = .ok schema ∧
      schema.sortedBy AsciiCollation.key (.byOrder .byLength) = .ok sorted ∧
      Untampered sorted ∧ sorted.Closed ∧ sorted.typeNames.Nodup ∧
      ∀ order, ∃ again, sorted.sort order = .ok again ∧ again.typeNames.Perm sorted.typeNames := by
  have isRead : ((Source.document starterDocument false).read noFiles).toOption.isSome := by
    decide +kernel
  obtain ⟨schema, given⟩ := exists_of_isSome_toOption isRead
  obtain ⟨-, -, -, -, -, -, sorts⟩ := sort_of_untampered (.read given)
  obtain ⟨sorted, isSorted, -⟩ := sorts AsciiCollation.key (.byOrder .byLength) .byLength rfl
  have untampered : Untampered sorted := .sort (.read given) isSorted
  obtain ⟨closed, unique, -, -, -, sortsAgain, -⟩ := sort_of_untampered untampered
  exact ⟨schema, sorted, given, isSorted, untampered, closed, unique, sortsAgain⟩

end Schema

end SchemaOrder
