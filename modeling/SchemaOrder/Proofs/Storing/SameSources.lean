import SchemaOrder.Proofs.Document.UnplacedBreaches
import SchemaOrder.Proofs.Document.UnplacedReading
import SchemaOrder.Proofs.Json.UnifiedReading
import SchemaOrder.Proofs.Schema.UnplacedDefinitions
import SchemaOrder.Proofs.Storing.WrittenFiles

/-!
# Sources with the same content

A path, its file and the text of the file are read alike. What a path leads to is read as a file,
whatever its bytes are, and no path is tried as a text for them. A text that leads to no file is
read itself: other than a file it keeps its line ends, but those end lines in a document and stand
between the parts of a JSON value only, so the schema is the same, and so is the kind of what is
refused. Messages are not the same, since an excerpt is of the text that was read.
-/

namespace SchemaOrder

open Outcome (Matches Parallel)

/-- Without its text and its places a document defines the same schema. -/
theorem Schema.ofDocument_sameUnplaced {source source' : Text}
    {document document' : List Document.Definition}
    (same : document.map Document.Definition.unplaced =
      document'.map Document.Definition.unplaced) (isTrusted : Bool) :
    Parallel SchemaFault.SameKind Eq (ofDocument source document isTrusted)
      (ofDocument source' document' isTrusted) := by
  have left := ofDocument_unplaced source document isTrusted
  have right := ofDocument_unplaced source' document' isTrusted
  rw [← same] at right
  exact .of_mapError_eq (left.mapError_eq.trans right.mapError_eq.symm)

/-- A text is read from its bytes with line feeds. -/
theorem Text.ofFile_of_encode {text : Text} {content : Bytes}
    (encoded : text.encode = .ok content) : ofFile content = .ok text.unifyLineEnds := by
  rw [ofFile, decode_encode encoded]
  rfl

/-- Faults of one kind. -/
def Fault.SameKind (left right : Fault) : Prop :=
  left.kind = right.kind

/-- A fault is of its own kind. -/
theorem Fault.SameKind.refl (fault : Fault) : fault.SameKind fault :=
  rfl

namespace Source

open Fault (SameKind)

/-- A document and the document with line feeds define the same schema, or are refused for the same
kind of reason. -/
theorem readDocument_unifyLineEnds (source : Text) (isTrusted : Bool) :
    Parallel SameKind Eq (readDocument source isTrusted)
      (readDocument source.unifyLineEnds isTrusted) := by
  unfold readDocument
  have parsed : Parallel SameKind (fun document document' =>
      document.map Document.Definition.unplaced = document'.map Document.Definition.unplaced)
      ((Document.parse source).mapError (.document · source))
      ((Document.parse source.unifyLineEnds).mapError (.document · source.unifyLineEnds)) := by
    have matched := Document.parse_unifyLineEnds source
    generalize Document.parse source = read, Document.parse source.unifyLineEnds = read' at matched
    cases matched with
    | ok same => exact .ok same
    | error _ _ => exact .error rfl
  refine parsed.bind fun document document' same => ?_
  have sameBreaches : Document.breaches document = Document.breaches document' := by
    rw [← Document.breaches_unplaced document, same, Document.breaches_unplaced]
  dsimp only
  rw [sameBreaches]
  generalize (if isTrusted then [] else Document.breaches document') = breaches
  split
  · exact (Schema.ofDocument_sameUnplaced same isTrusted).mapError fun _ _ sameKind => sameKind
  · exact .error rfl

/-- So are an introspection result and the result with line feeds. -/
theorem readIntrospection_unifyLineEnds (source : Text) :
    Parallel SameKind Eq (readIntrospection source)
      (readIntrospection source.unifyLineEnds) := by
  unfold readIntrospection
  have parsed : Parallel SameKind Eq ((Json.parse source).mapError (.json · source))
      ((Json.parse source.unifyLineEnds).mapError (.json · source.unifyLineEnds)) := by
    refine (Json.parse_unifyLineEnds source).mapError ?_
    rintro _ _ (_ | _) <;> rfl
  exact parsed.bindSame fun value => .refl SameKind.refl _

/-- What a format takes for the path of a file or for the text itself. -/
def ofPathOrText (pathOrText : Text) : Format → Source
  | .document => .document pathOrText false
  | .introspection => .introspection pathOrText

/-- The schema of a text in a format. -/
def readText (text : Text) : Format → Except Fault Schema
  | .document => readDocument text false
  | .introspection => readIntrospection text

/-- So is a text in any format. -/
theorem readText_unifyLineEnds (text : Text) (format : Format) :
    Parallel SameKind Eq (readText text format) (readText text.unifyLineEnds format) := by
  cases format with
  | document => exact readDocument_unifyLineEnds text false
  | introspection => exact readIntrospection_unifyLineEnds text

variable {volume : Volume}

/-- The schema of a path or a text is that of the text that it stands for. -/
theorem read_ofPathOrText (pathOrText : Text) (format : Format) :
    read volume (ofPathOrText pathOrText format) =
      Source.pathOrText volume pathOrText >>= (readText · format) := by
  cases format <;> rfl

/-- The schema of a file is that of its text. -/
theorem read_file (path : Text) (format : Format) :
    read volume (.file path format) = fileText volume path >>= (readText · format) := by
  cases format <;> rfl

/-- A format may as well be called by its name. -/
theorem read_namedFormat (path : Text) (format : Format) :
    read volume (.namedFormat path (some format.name)) = read volume (.file path format) := by
  cases format <;> rfl

/-- A path that leads to a file is not taken for a text. -/
theorem pathOrText_of_read {path : Text} {content : Bytes}
    (isFile : volume.read path = .ok content) :
    Source.pathOrText volume path = fileText volume path := by
  rw [Source.pathOrText, fileText, isFile]
  rfl

/-- A path that leads to a file, the file and the file in its named format give one and the same
schema or one and the same fault; bytes that are no text are such a fault. A text with these bytes
that leads to no file gives the same schema, or a fault of the same kind. -/
theorem read_sameContent {path : Text} {content : Bytes}
    (isFile : volume.read path = .ok content) (format : Format) :
    read volume (ofPathOrText path format) = read volume (.file path format) ∧
      read volume (.namedFormat path (some format.name)) = read volume (.file path format) ∧
      (∀ fault, Text.ofFile content = .error fault →
        read volume (.file path format) = .error (.decoding fault)) ∧
      ∀ text refusal, text.encode = .ok content → volume.read text = .error refusal →
        (read volume (ofPathOrText text format)).mapError Fault.kind =
          (read volume (.file path format)).mapError Fault.kind := by
  have opened : fileText volume path = (Text.ofFile content).mapError .decoding := by
    rw [fileText, isFile]
    rfl
  refine ⟨?_, read_namedFormat path format, ?_, ?_⟩
  · rw [read_ofPathOrText, read_file, pathOrText_of_read isFile]
  · intro fault undecodable
    rw [read_file, opened, undecodable]
    rfl
  · intro text refusal encoded isText
    rw [read_ofPathOrText, read_file, opened, Text.ofFile_of_encode encoded, Source.pathOrText,
      isText]
    exact (readText_unifyLineEnds text format).mapError_eq

/-- A document whose lines end in every way, between its parts and in a block. -/
def returningDocument : Text :=
  "type Query \x7b\r\n  # line\r  \"\"\"\r\n  one\r  two\n  \"\"\"\r\n  field: Int\n\x7d\r"

/-- A volume with a file that holds this document. -/
def returningVolume : Volume :=
  ⟨[], [([Text.ofString "s.graphql"], .file (Text.encodeLoosely returningDocument))]⟩

/-- The document is read alike from its file, where all its line ends become line feeds, and as a
text that keeps them. -/
theorem read_sameContent_returningDocument :
    read returningVolume (.document "s.graphql" false) =
        read returningVolume (.file "s.graphql" .document) ∧
      (read returningVolume (.document returningDocument false)).mapError Fault.kind =
        (read returningVolume (.file "s.graphql" .document)).mapError Fault.kind ∧
      returningDocument.unifyLineEnds ≠ returningDocument ∧
      (read returningVolume (.document returningDocument false)).toOption.isSome = true := by
  have isFile : returningVolume.read "s.graphql" = .ok (Text.encodeLoosely returningDocument) := by
    decide +kernel
  have encoded : returningDocument.encode = .ok (Text.encodeLoosely returningDocument) := by
    decide +kernel
  have isText : returningVolume.read returningDocument =
      .error (.refused .notFound returningDocument) := by
    decide +kernel
  obtain ⟨samePath, -, -, sameText⟩ := read_sameContent isFile .document
  exact ⟨samePath, sameText returningDocument _ encoded isText, by decide +kernel,
    by decide +kernel⟩

end Source

end SchemaOrder
