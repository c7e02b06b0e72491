import SchemaOrder.Proofs.Command.StoredResults
import SchemaOrder.Proofs.Storing.CanonicalTexts
import SchemaOrder.Proofs.Storing.ExistingDirectories

/-!
# Converting what was converted

A conversion into a document writes a canonical text. What is read of its file has the same
canonical text, so that converting the file again gives the text that it holds. In place this
succeeds and leaves every file as it is. `storing_keeps_canonical_text` puts this together with what
is said of stored schemas.
-/

namespace SchemaOrder

open Outcome

/-- A conversion of the file that another one wrote a document to, into a document again, by the
same options. -/
structure Conversion.Repeats (again conversion : Conversion) (path : Text) : Prop where
  output : conversion.output = some path
  nonempty : path ≠ []
  format : conversion.outputFormat = Format.document.outputName
  input : again.input = path
  inputFormat : Source.formatOf path again.inputFormat = .ok .document
  outputFormat : again.outputFormat = Format.document.outputName
  options : again.options = conversion.options

namespace Task

variable {collation : Collation} {conversion again : Conversion} {desk after : Desk}
  {output text : Text} {content : Bytes} {place : List Text}

/-- Storing in a file the text that it holds succeeds and leaves all files as they are. -/
theorem store_of_stored (encoded : text.encode = .ok content)
    (found : desk.volume.find output = .ok (place, some (.file content))) :
    ∃ after, store output text desk = (.ok (), after) ∧
      ∀ other, after.volume.fileAt? other = desk.volume.fileAt? other := by
  have isPlace := Volume.placeToWrite_of_file found
  have isEmptied : desk.volume.write output [] = .ok (desk.volume.put place (.file [])) := by
    rw [Volume.write, isPlace]
    rfl
  have isWritten : (desk.volume.put place (.file [])).write output content =
      .ok ((desk.volume.put place (.file [])).put place (.file content)) := by
    rw [Volume.write, Volume.placeToWrite_of_write isPlace isEmptied]
    rfl
  refine ⟨_, bind_eq_ok_iff.mpr ⟨(), _, makeDirectories_eq_ok_iff.mpr ⟨_,
    Volume.makeDirectories_of_file found, rfl⟩, bind_eq_ok_iff.mpr ⟨(), _, writeFile_eq_ok_iff.mpr
      ⟨_, content, _, isEmptied, encoded, isWritten, rfl⟩, rfl⟩⟩, fun other => ?_⟩
  obtain ⟨emptyPlace, isEmptyPlace, empties, -⟩ := Volume.write_keeps isEmptied
  obtain ⟨lastPlace, isLastPlace, writes, foundAgain⟩ := Volume.write_keeps isWritten
  obtain rfl := Except.ok.inj (isPlace.symm.trans isEmptyPlace)
  obtain rfl := Except.ok.inj
    ((Volume.placeToWrite_of_write isPlace isEmptied).symm.trans isLastPlace)
  rcases eq_or_ne other place with rfl | different
  · rw [Volume.fileAt?_eq_some_iff.mpr (Volume.eq_at?_of_find found).symm]
    exact Volume.fileAt?_eq_some_iff.mpr (Volume.eq_at?_of_find foundAgain).symm
  · exact (empties.trans writes).file other different

/-- A conversion that gives the text that its output holds succeeds and leaves all files as they
are. -/
theorem convert_of_stored (isOutput : conversion.output = some output) (nonempty : output ≠ [])
    (isText : conversion.text collation desk.volume = .ok text)
    (encoded : text.encode = .ok content)
    (found : desk.volume.find output = .ok (place, some (.file content))) :
    ∃ after, convert collation conversion desk = (.ok text, after) ∧
      ∀ other, after.volume.fileAt? other = desk.volume.fileAt? other := by
  have hasOutput : (conversion.output.getD []).isEmpty = false := by simpa [isOutput] using nonempty
  obtain ⟨between, rendered, sameVolume⟩ := (isText ▸ render_looks).exists_ok
  obtain ⟨after, stored, keeps⟩ := store_of_stored encoded (sameVolume ▸ found)
  refine ⟨after, ?_, fun other => (keeps other).trans (by rw [sameVolume])⟩
  rw [convert_of_output hasOutput, isOutput]
  exact bind_eq_ok_iff.mpr ⟨text, between, rendered, bind_eq_ok_iff.mpr ⟨(), after, stored, rfl⟩⟩

/-- Converting again what was converted gives the same text. -/
theorem text_of_repeats {result : Text} {schema reread : Schema}
    (repeats : again.Repeats conversion output)
    (isRead : (Source.namedFormat conversion.input conversion.inputFormat).read desk.volume =
      .ok schema) (rereadable : schema.HasRereadableDefaults)
    (converted : convert collation conversion desk = (.ok result, after))
    (isReread : (Source.file output .document).read after.volume = .ok reread) :
    again.text collation after.volume = .ok result := by
  obtain ⟨_, order, sorted, made, emptied, content, isInput, isOrder, sorts, isText, -, -, encoded,
    isWritten⟩ := (convert_eq_ok_iff repeats.output repeats.nonempty).mp ⟨after, converted, rfl⟩
  obtain rfl := Except.ok.inj (isRead.symm.trans isInput)
  have intact := Source.read_intact isRead
  have untampered : Untampered sorted := .sort (.read isRead)
    (show schema.sortedBy collation (.byOrder order) = .ok sorted from sorts)
  have isSorted : schema.sort order = .ok sorted := mapError_eq_ok_iff.mp sorts
  rw [repeats.format] at isText
  have stored := stored_of_write untampered isText encoded isWritten isReread
  -- The sorted copy is its own sorted copy, so that its canonical text is what the file holds.
  obtain ⟨_, resorted, canonical, sortsAgain, resorts, isCanonical, isCanonicalAgain, -⟩ :=
    stored.exists_canonicalText untampered (rereadable.arranged (intact.isArranged isSorted)) order
  obtain rfl := Except.ok.inj ((intact.sort_sorted_self isSorted).symm.trans sortsAgain)
  have isResult : sorted.toDocument = .ok result := mapError_eq_ok_iff.mp isText
  obtain rfl := Except.ok.inj (isResult.symm.trans isCanonical)
  refine Outcome.bind_eq_ok_iff.mpr ⟨reread, ?_, Outcome.bind_eq_ok_iff.mpr ⟨resorted, ?_, ?_⟩⟩
  · rw [repeats.input]
    exact Outcome.bind_eq_ok_iff.mpr ⟨.document, repeats.inputFormat, isReread⟩
  · rw [repeats.options, isOrder]
    exact mapError_eq_ok_iff.mpr resorts
  · rw [repeats.outputFormat]
    exact mapError_eq_ok_iff.mpr isCanonicalAgain

end Task

namespace Schema

/-- A schema that came about without tampering, and what is read of its document or its description,
have one canonical text and one fingerprint by every comparison that is accepted, if the defaults
of the schema are read as they are written. A document that a conversion wrote is converted by the
same options to the text that it holds: in place this succeeds and leaves all files as they are,
and elsewhere it writes the same bytes. -/
theorem storing_keeps_canonical_text (collation : Collation) :
    (∀ (schema reread : Schema) (volume : Volume) (text : Text), Untampered schema →
      schema.HasRereadableDefaults → (∀ content, volume.read text ≠ .ok content) →
      (schema.documentText = .ok text ∧
          ∃ isTrusted, (Source.document text isTrusted).read volume = .ok reread) ∨
        (schema.introspectionText = .ok text ∧
          (Source.introspection text).read volume = .ok reread) →
      ∀ comparison order, Comparison.nameOrder collation comparison = .ok order →
        ∃ sorted resorted canonical, schema.sortedBy collation comparison = .ok sorted ∧
          reread.sortedBy collation comparison = .ok resorted ∧
          sorted.documentText = .ok canonical ∧ resorted.documentText = .ok canonical ∧
          reread.fingerprintBy collation comparison =
            schema.fingerprintBy collation comparison) ∧
    ∀ (conversion again : Conversion) (output result : Text) (desk after : Desk)
      (schema reread : Schema), again.Repeats conversion output →
      (Source.namedFormat conversion.input conversion.inputFormat).read desk.volume = .ok schema →
      schema.HasRereadableDefaults →
      Task.convert collation conversion desk = (.ok result, after) →
      (Source.file output .document).read after.volume = .ok reread →
      ∃ content, result.encode = .ok content ∧ after.volume.read output = .ok content ∧
        again.text collation after.volume = .ok result ∧
        ∀ next, next.volume = after.volume →
          (again.output = some output → ∃ final,
            Task.convert collation again next = (.ok result, final) ∧
              ∀ place, final.volume.fileAt? place = next.volume.fileAt? place) ∧
          ∀ other answer final, again.output = some other → other ≠ [] →
            Task.convert collation again next = (.ok answer, final) →
              answer = result ∧ final.volume.read other = .ok content := by
  constructor
  · intro schema reread volume text untampered rereadable noFile given comparison order isOrder
    obtain ⟨sorted, resorted, canonical, sorts, resorts, isCanonical, isCanonicalAgain, same⟩ :=
      (Stored.of_read noFile given).exists_canonicalText untampered rereadable order
    refine ⟨sorted, resorted, canonical, ?_, ?_, mapError_eq_ok_iff.mpr isCanonical,
      mapError_eq_ok_iff.mpr isCanonicalAgain, ?_⟩
    · rw [sortedBy, isOrder]
      exact mapError_eq_ok_iff.mpr sorts
    · rw [sortedBy, isOrder]
      exact mapError_eq_ok_iff.mpr resorts
    · rw [fingerprintBy, fingerprintBy, isOrder]
      exact same.symm
  · intro conversion again output result desk after schema reread repeats isRead
      rereadable converted isReread
    have isText := Task.text_of_repeats repeats isRead rereadable converted isReread
    obtain ⟨-, place, content, encoded, found, -⟩ :=
      Task.convert_eq_ok repeats.output (by simpa using repeats.nonempty) converted
    refine ⟨content, encoded, Volume.read_eq_ok_iff.mpr ⟨place, found⟩, isText,
      fun next sameVolume => ⟨fun inPlace => ?_, ?_⟩⟩
    · rw [← sameVolume] at isText found
      exact Task.convert_of_stored inPlace repeats.nonempty isText encoded found
    · intro other answer final isOther notEmpty convertedAgain
      obtain ⟨isAnswer, otherPlace, otherContent, otherEncoded, otherFound, -⟩ :=
        Task.convert_eq_ok isOther (by simpa using notEmpty) convertedAgain
      rw [sameVolume, isText] at isAnswer
      obtain rfl := Except.ok.inj isAnswer
      obtain rfl := Except.ok.inj (encoded.symm.trans otherEncoded)
      exact ⟨rfl, Volume.read_eq_ok_iff.mpr ⟨otherPlace, otherFound⟩⟩

/-- The conversion of the sorted file in place. -/
def pairAgain : Conversion :=
  { pairConversion with input := "sorted.graphql" }

/-- A small schema has the canonical text of its document and of its description, and converting a
converted file again changes nothing. -/
theorem storing_keeps_canonical_text_starterDocument :
    (∃ schema document ofDocument description ofDescription sorted first second text,
      (Source.document starterDocument false).read noFiles = .ok schema ∧
      schema.HasRereadableDefaults ∧ schema.documentText = .ok document ∧
      (Source.document document false).read noFiles = .ok ofDocument ∧
      schema.introspectionText = .ok description ∧
      (Source.introspection description).read noFiles = .ok ofDescription ∧
      schema.sortedBy AsciiCollation.key (.options .null) = .ok sorted ∧
      ofDocument.sortedBy AsciiCollation.key (.options .null) = .ok first ∧
      ofDescription.sortedBy AsciiCollation.key (.options .null) = .ok second ∧
      sorted.documentText = .ok text ∧ first.documentText = .ok text ∧
      second.documentText = .ok text) ∧
    ∃ after final,
      Task.convert AsciiCollation.key pairConversion pairDesk = (.ok sortedPairDocument, after) ∧
      Task.convert AsciiCollation.key pairAgain after = (.ok sortedPairDocument, final) ∧
      ∀ place, final.volume.fileAt? place = after.volume.fileAt? place := by
  constructor
  · have succeeds : (do
        let schema ← (Source.document starterDocument false).read noFiles
        let document ← schema.documentText
        let _ ← (Source.document document false).read noFiles
        let _ ← schema.introspectionText
        let value ← schema.introspection.mapError .description
        let _ ← (ofIntrospection value).mapError .schema
        return decide schema.HasRereadableDefaults : Except Fault Bool).toOption = some true := by
      decide +kernel
    obtain ⟨schema, isRead, rest⟩ := bind_eq_ok_iff.mp (eq_ok_of_toOption succeeds)
    obtain ⟨document, written, rest⟩ := bind_eq_ok_iff.mp rest
    obtain ⟨ofDocument, isReread, rest⟩ := bind_eq_ok_iff.mp rest
    obtain ⟨description, described, rest⟩ := bind_eq_ok_iff.mp rest
    obtain ⟨value, isValue, rest⟩ := bind_eq_ok_iff.mp rest
    obtain ⟨ofDescription, isDescribed, rest⟩ := bind_eq_ok_iff.mp rest
    have rereadable : schema.HasRereadableDefaults := of_decide_eq_true (pure_eq_ok_iff.mp rest)
    obtain ⟨_, isSame, reads⟩ := read_of_introspectionText described (noFiles_read description)
    obtain rfl := Except.ok.inj (isSame.symm.trans (mapError_eq_ok_iff.mp isValue))
    rw [← reads] at isDescribed
    have keeps := (storing_keeps_canonical_text AsciiCollation.key).1 schema
    obtain ⟨sorted, first, text, sorts, sortsFirst, isText, isFirst, -⟩ :=
      keeps ofDocument noFiles document (.read isRead) rereadable (noFiles_read document)
        (.inl ⟨written, false, isReread⟩) (.options .null) .byCodePoint rfl
    obtain ⟨_, second, _, sortsAgain, sortsSecond, isTextAgain, isSecond, -⟩ :=
      keeps ofDescription noFiles description (.read isRead) rereadable (noFiles_read description)
        (.inr ⟨described, isDescribed⟩) (.options .null) .byCodePoint rfl
    obtain rfl := Except.ok.inj (sorts.symm.trans sortsAgain)
    obtain rfl := Except.ok.inj (isText.symm.trans isTextAgain)
    exact ⟨schema, document, ofDocument, description, ofDescription, sorted, first, second, text,
      isRead, rereadable, written, isReread, described, isDescribed, sorts, sortsFirst, sortsSecond,
      isText, isFirst, isSecond⟩
  · obtain ⟨schema, after, reread, isRead, converted, isReread⟩ := convert_pairDesk
    have succeeds : (do
        let schema ← (Source.namedFormat pairConversion.input none).read pairDesk.volume
        return decide schema.HasRereadableDefaults : Except Fault Bool).toOption = some true := by
      decide +kernel
    obtain ⟨_, isSame, rest⟩ := bind_eq_ok_iff.mp (eq_ok_of_toOption succeeds)
    obtain rfl := Except.ok.inj (isRead.symm.trans isSame)
    have rereadable : schema.HasRereadableDefaults := of_decide_eq_true (pure_eq_ok_iff.mp rest)
    have repeats : pairAgain.Repeats pairConversion "sorted.graphql" :=
      ⟨rfl, by decide, rfl, rfl, congrArg Except.ok (by decide), rfl, rfl⟩
    obtain ⟨_, -, -, -, keeps⟩ := (storing_keeps_canonical_text AsciiCollation.key).2
      pairConversion pairAgain "sorted.graphql" sortedPairDocument pairDesk after schema reread
      repeats isRead rereadable converted isReread
    obtain ⟨final, convertedAgain, unchanged⟩ := (keeps after rfl).1 rfl
    exact ⟨after, final, converted, convertedAgain, unchanged⟩

/-- A document whose default for an identifier ends in a line feed. -/
def feedDocument : Text :=
  "type Query \x7b a(x: ID = \"123\\n\"): Int \x7d"

/-- Not every schema without floating-point numbers has the canonical text of its document, or that
of its description: digits with a line feed behind them are written as a number, and the line feed
is lost. -/
theorem storing_changes_canonical_text_feedDocument :
    ∃ schema document ofDocument description ofDescription sorted first second text firstText
        secondText,
      Untampered schema ∧
      (∀ type ∈ schema.types, ∀ input ∈ type.body.inputs, ∀ value ∈ input.default?,
        value.holdsFloat = false) ∧
      (∀ directive ∈ schema.directives, ∀ input ∈ directive.arguments, ∀ value ∈ input.default?,
        value.holdsFloat = false) ∧
      schema.documentText = .ok document ∧ (∀ content, noFiles.read document ≠ .ok content) ∧
      (Source.document document false).read noFiles = .ok ofDocument ∧
      schema.introspectionText = .ok description ∧
      (∀ content, noFiles.read description ≠ .ok content) ∧
      (Source.introspection description).read noFiles = .ok ofDescription ∧
      schema.sortedBy AsciiCollation.key (.options .null) = .ok sorted ∧
      ofDocument.sortedBy AsciiCollation.key (.options .null) = .ok first ∧
      ofDescription.sortedBy AsciiCollation.key (.options .null) = .ok second ∧
      sorted.documentText = .ok text ∧ first.documentText = .ok firstText ∧
      second.documentText = .ok secondText ∧ firstText ≠ text ∧ secondText ≠ text := by
  have succeeds : (do
      let schema ← (Source.document feedDocument false).read noFiles
      let document ← schema.documentText
      let ofDocument ← (Source.document document false).read noFiles
      let firstText ← ofDocument.documentText
      let _ ← schema.introspectionText
      let value ← schema.introspection.mapError .description
      let ofDescription ← (ofIntrospection value).mapError .schema
      let secondText ← ofDescription.documentText
      return decide (schema.isSorted .byCodePoint = true ∧ ofDocument.isSorted .byCodePoint = true ∧
        ofDescription.isSorted .byCodePoint = true ∧
        (∀ type ∈ schema.types, ∀ input ∈ type.body.inputs, ∀ value ∈ input.default?,
          value.holdsFloat = false) ∧
        (∀ directive ∈ schema.directives, ∀ input ∈ directive.arguments, ∀ value ∈ input.default?,
          value.holdsFloat = false) ∧
        firstText ≠ document ∧ secondText ≠ document) : Except Fault Bool).toOption =
          some true := by
    decide +kernel
  obtain ⟨schema, isRead, rest⟩ := bind_eq_ok_iff.mp (eq_ok_of_toOption succeeds)
  obtain ⟨document, written, rest⟩ := bind_eq_ok_iff.mp rest
  obtain ⟨ofDocument, isReread, rest⟩ := bind_eq_ok_iff.mp rest
  obtain ⟨firstText, isFirstText, rest⟩ := bind_eq_ok_iff.mp rest
  obtain ⟨description, described, rest⟩ := bind_eq_ok_iff.mp rest
  obtain ⟨value, isValue, rest⟩ := bind_eq_ok_iff.mp rest
  obtain ⟨ofDescription, isDescribed, rest⟩ := bind_eq_ok_iff.mp rest
  obtain ⟨secondText, isSecondText, rest⟩ := bind_eq_ok_iff.mp rest
  obtain ⟨inOrder, firstInOrder, secondInOrder, inTypes, inDirectives, notFirst, notSecond⟩ :=
    of_decide_eq_true (pure_eq_ok_iff.mp rest)
  obtain ⟨_, isSame, reads⟩ := read_of_introspectionText described (noFiles_read description)
  obtain rfl := Except.ok.inj (isSame.symm.trans (mapError_eq_ok_iff.mp isValue))
  rw [← reads] at isDescribed
  -- All three schemas pass the check, so that their canonical texts are their documents.
  have canonical : ∀ {schema : Schema} {text : Text}, schema.Intact →
      schema.isSorted .byCodePoint = true → schema.documentText = .ok text → ∃ sorted,
        schema.sortedBy AsciiCollation.key (.options .null) = .ok sorted ∧
          sorted.documentText = .ok text :=
    fun intact inOrder isText => intact.exists_canonicalText_of_isSorted rfl inOrder isText
  obtain ⟨sorted, sorts, isText⟩ := canonical (Source.read_intact isRead) inOrder written
  obtain ⟨first, sortsFirst, isFirst⟩ :=
    canonical (Source.read_intact isReread) firstInOrder isFirstText
  obtain ⟨second, sortsSecond, isSecond⟩ :=
    canonical (Source.read_intact isDescribed) secondInOrder isSecondText
  exact ⟨schema, document, ofDocument, description, ofDescription, sorted, first, second, document,
    firstText, secondText, .read isRead, inTypes, inDirectives, written, noFiles_read document,
    isReread, described, noFiles_read description, isDescribed, sorts, sortsFirst, sortsSecond,
    isText, isFirst, isSecond, notFirst, notSecond⟩

end Schema

end SchemaOrder
