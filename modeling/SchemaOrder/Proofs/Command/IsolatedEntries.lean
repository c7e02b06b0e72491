import SchemaOrder.Proofs.Command.Endings
import SchemaOrder.Proofs.Storing.ExistingDirectories
import SchemaOrder.Proofs.Storing.SharedDirectories

/-!
# Files of a batch, one by one

Where both directories of a batch are there, and are not the same, a file is converted in the batch
as it is alone: the files before it leave behind nothing but files in the directory for the results,
and neither its text nor whether its result can be written depends on those. `WritesIn` says of a
task that it writes into one directory at most and what comes out of it, and
`convertAll_isolates_failures` says what a whole batch comes to.
-/

namespace SchemaOrder

open Outcome
open SchemaOrder.Path (IsPlain)

variable {collation : Collation} {before after : Volume}

/-- What is read of a file depends on nothing but the content of that file. -/
theorem Source.read_congr {path : Text} {format : Option Text}
    (same : after.read path = before.read path) :
    (namedFormat path format).read after = (namedFormat path format).read before := by
  simp only [read, readFile, fileText, same]

/-- So does the text that a conversion gives. -/
theorem Conversion.text_congr {conversion : Conversion}
    (same : after.read conversion.input = before.read conversion.input) :
    conversion.text collation after = conversion.text collation before := by
  simp only [text, Source.read_congr same]

/-- A path leads to the directory that is found there. -/
theorem Volume.directoryAt?_of_find {volume : Volume} {path : Text} {place : List Text}
    (found : volume.find path = .ok (place, some .directory)) :
    volume.directoryAt? path = some place :=
  directoryAt?_eq_some_iff.mpr (find_eq_ok_iff.mp found).2.2.2.1

/-- A path that leads to a directory leads to it in every volume with the same directories. -/
theorem Volume.DifferIn.find_directory {left right : Volume} {path : Text} {place other : List Text}
    (differ : DifferIn place left right) (found : left.find path = .ok (other, some .directory)) :
    right.find path = .ok (other, some .directory) := by
  obtain ⟨taken, nonempty, short, -⟩ := find_eq_ok_iff.mp found
  exact find_eq_ok_iff.mpr ⟨taken, nonempty, short,
    directoryAt?_eq_some_iff.mp (differ.directoryAt? (directoryAt?_of_find found)), nofun⟩

namespace Task

variable {α β : Type} {desk : Desk} {place : List Text} {path name text : Text}

/-- A task that writes files of one directory at most, and what comes out of it. -/
structure WritesIn (place : List Text) (task : Task α) (desk : Desk) (outcome : Except Fault α) :
    Prop where
  outcome : (task desk).1 = outcome
  files : desk.volume.DifferIn place (task desk).2.volume

namespace WritesIn

/-- A task that leaves the files as they are. -/
theorem of_looks {task : Task α} {outcome : Except Fault α} (looks : Looks task desk outcome) :
    WritesIn place task desk outcome :=
  ⟨looks.outcome, by rw [looks.files]; exact .refl place _⟩

/-- Tasks that write into the directory do so one after the other. -/
theorem bind {first : Task α} {next : α → Task β} {outcome : Except Fault α}
    {rest : α → Except Fault β} (writes : WritesIn place first desk outcome)
    (further : ∀ middle between, desk.volume.DifferIn place between.volume →
      WritesIn place (next middle) between (rest middle)) :
    WritesIn place (first >>= next) desk (outcome >>= rest) := by
  obtain ⟨isOutcome, differ⟩ := writes
  subst isOutcome
  have unfolded := bind_apply first next desk
  rcases ran : first desk with ⟨fault | middle, between⟩
  · rw [ran] at differ unfolded
    exact ⟨congrArg Prod.fst unfolded, by rw [unfolded]; exact differ⟩
  · rw [ran] at differ unfolded
    obtain ⟨isResult, moreDiffer⟩ := further middle between differ
    exact ⟨(congrArg Prod.fst unfolded).trans isResult,
      by rw [unfolded]; exact differ.trans moreDiffer⟩

end WritesIn

/-- What comes of storing a text: its file has to be one that can be written, and the text has to
have a form in bytes. -/
def stored (volume : Volume) (output text : Text) : Except Fault Unit := do
  let _ ← (volume.placeToWrite output).mapError .file
  let _ ← text.encode.mapError .encoding
  pure ()

/-- A file in a directory is written there and nowhere else. -/
theorem writeFile_writesIn (plain : IsPlain name)
    (leads : desk.volume.directoryAt? path = some place) (text : Text) :
    WritesIn place (writeFile (Path.join path name) text) desk
      (stored desk.volume (Path.join path name) text) := by
  have unfolded := writeFile_apply (Path.join path name) text desk
  cases isPlace : desk.volume.placeToWrite (Path.join path name) with
  | error refused =>
      have cannot : desk.volume.write (Path.join path name) [] = .error refused := by
        rw [Volume.write, isPlace]
        rfl
      rw [cannot] at unfolded
      refine ⟨?_, ?_⟩
      · rw [unfolded, stored, isPlace]
        rfl
      · rw [unfolded]
        exact .refl place _
  | ok found =>
      have isThere := isPlace
      rw [Volume.placeToWrite_join plain leads] at isThere
      obtain ⟨⟨⟩, -, given⟩ := Outcome.bind_eq_ok_iff.mp isThere
      split_ifs at given with isDirectory
      cases given
      have empties : desk.volume.write (Path.join path name) [] =
          .ok (desk.volume.put (place ++ [name]) (.file [])) := by
        rw [Volume.write, isPlace]
        rfl
      have differ : desk.volume.DifferIn place (desk.volume.put (place ++ [name]) (.file [])) :=
        .put isDirectory
      rw [empties] at unfolded
      cases isContent : text.encode with
      | error reason =>
          rw [isContent] at unfolded
          refine ⟨?_, ?_⟩
          · rw [unfolded, stored, isPlace, isContent]
            rfl
          · rw [unfolded]
            exact differ
      | ok content =>
          have rewrites : (desk.volume.put (place ++ [name]) (.file [])).write
              (Path.join path name) content = .ok
                ((desk.volume.put (place ++ [name]) (.file [])).put (place ++ [name])
                  (.file content)) := by
            rw [Volume.write, Volume.placeToWrite_of_write isPlace empties]
            rfl
          simp only [isContent, rewrites] at unfolded
          refine ⟨?_, ?_⟩
          · rw [unfolded, stored, isPlace, isContent]
            rfl
          · rw [unfolded]
            exact differ.trans (.put fun stays => isDirectory ((differ.directory _).mp stays))

/-- Whether a text can be stored in a file of the directory does not depend on the files there. -/
theorem stored_of_differIn (differ : before.DifferIn place after) (plain : IsPlain name)
    (leads : before.directoryAt? path = some place) (text : Text) :
    stored after (Path.join path name) text = stored before (Path.join path name) text := by
  rw [stored, stored, differ.placeToWrite_join plain leads]

/-- Nothing has to be made for a file in a directory that is there. -/
theorem store_writesIn (plain : IsPlain name)
    (found : desk.volume.find path = .ok (place, some .directory)) (text : Text) :
    WritesIn place (store (Path.join path name) text) desk
      (stored desk.volume (Path.join path name) text) := by
  obtain ⟨middle, isThere⟩ := Volume.find_directory_join plain found
  have named : (if (Path.directory (Path.join path name)).isEmpty then Text.ofString "."
      else Path.directory (Path.join path name)) = Path.directory (Path.join path name) := by
    have nonempty := (Volume.find_eq_ok_iff.mp isThere).2.1
    simp [nonempty]
  have makes : makeDirectories (Path.directory (Path.join path name)) desk = (.ok (), desk) :=
    makeDirectories_eq_ok_iff.mpr ⟨_, Volume.makeDirectories_of_directory isThere, rfl⟩
  have writes := writeFile_writesIn plain
    (Volume.directoryAt?_of_find found) text
  have notes : WritesIn place (do
      writeFile (Path.join path name) text
      note .debug .program ("Wrote " ++ Path.join path name)) desk
      (stored desk.volume (Path.join path name) text >>= fun _ => .ok ()) :=
    writes.bind fun _ _ _ => .of_looks (.note ..)
  have whole : store (Path.join path name) text desk = (do
      writeFile (Path.join path name) text
      note .debug .program ("Wrote " ++ Path.join path name)) desk := by
    rw [store, named, bind_apply, makes]
  exact ⟨by rw [whole, notes.outcome]; exact bind_pure _, by rw [whole]; exact notes.files⟩

section Batches

variable {batch : Batch} {extension : Text} {inPlace outPlace : List Text}

/-- What comes of converting a file of a directory, by the files as they are. -/
def Batch.outcome (collation : Collation) (batch : Batch) (extension name : Text)
    (volume : Volume) : Except Fault Text := do
  let text ← (batch.conversion extension name).text collation volume
  stored volume (Path.join batch.output (outputName extension name)) text
  pure text

/-- A file of a directory is converted by its text being worked out and stored. -/
theorem convert_writesIn (plain : IsPlain (outputName extension name))
    (isOutput : desk.volume.find batch.output = .ok (outPlace, some .directory)) :
    WritesIn outPlace (convert collation (batch.conversion extension name)) desk
      (batch.outcome collation extension name desk.volume) := by
  have hasOutput : ((batch.conversion extension name).output.getD []).isEmpty = false :=
    plain.isEmpty_join
  rw [convert_of_output hasOutput]
  refine (WritesIn.of_looks render_looks).bind fun text between differ => ?_
  rw [← stored_of_differIn differ plain (Volume.directoryAt?_of_find isOutput) text]
  exact (store_writesIn plain (differ.find_directory isOutput) text).bind fun _ _ _ =>
    .of_looks (.pure text)

/-- A file that is converted alone comes to the same in a volume where files were written into the
directory for the results. -/
theorem Batch.outcome_of_differIn
    (plain : IsPlain name ∧ IsPlain (outputName extension name))
    (isInput : before.find batch.input = .ok (inPlace, some .directory))
    (isOutput : before.find batch.output = .ok (outPlace, some .directory))
    (apart : inPlace ≠ outPlace) (differ : before.DifferIn outPlace after) :
    batch.outcome collation extension name after =
      batch.outcome collation extension name before := by
  have sameText : (batch.conversion extension name).text collation after =
      (batch.conversion extension name).text collation before :=
    Conversion.text_congr (differ.read_join plain.1 (Volume.directoryAt?_of_find isInput) apart)
  have sameStored := stored_of_differIn differ plain.2 (Volume.directoryAt?_of_find isOutput)
  simp only [outcome, sameText, sameStored]

/-- So whatever the files before it are, a file of a batch comes to what it comes to alone. -/
theorem Converts.outcome_eq {reports : List Report}
    (converts : Converts collation batch extension before reports after)
    (plain : ∀ report ∈ reports,
      IsPlain report.name ∧ IsPlain (outputName extension report.name))
    (isInput : before.find batch.input = .ok (inPlace, some .directory))
    (isOutput : before.find batch.output = .ok (outPlace, some .directory))
    (apart : inPlace ≠ outPlace) :
    ∀ report ∈ reports, report.outcome = batch.outcome collation extension report.name before := by
  induction converts with
  | done => exact List.forall_mem_nil _
  | @step desk converted first reports _ after atStart ran rest inductionHypothesis =>
      subst atStart
      obtain ⟨plainFirst, plainOthers⟩ := List.forall_mem_cons.mp plain
      obtain ⟨isOutcome, differ⟩ := convert_writesIn plainFirst.2 isOutput
      rw [ran] at isOutcome differ
      refine List.forall_mem_cons.mpr ⟨isOutcome, fun report mem => ?_⟩
      rw [inductionHypothesis plainOthers (differ.find_directory isInput)
        (differ.find_directory isOutput) report mem]
      exact Batch.outcome_of_differIn (plainOthers report mem) isInput isOutput apart differ

/-- The reports on files with some names, each of which is converted alone. -/
def Batch.reports (collation : Collation) (batch : Batch) (extension : Text) (volume : Volume)
    (names : List Text) : List Report :=
  names.map fun name =>
    ⟨name, (convert collation (batch.conversion extension name) ⟨volume, [], []⟩).1⟩

/-- A batch reports on each file what comes of converting that file alone. -/
theorem Converts.reports_eq {reports : List Report} {names : List Text}
    (converts : Converts collation batch extension before reports after)
    (isNames : reports.map Report.name = names)
    (plain : ∀ name ∈ names, IsPlain name ∧ IsPlain (outputName extension name))
    (isInput : before.find batch.input = .ok (inPlace, some .directory))
    (isOutput : before.find batch.output = .ok (outPlace, some .directory))
    (apart : inPlace ≠ outPlace) : reports = batch.reports collation extension before names := by
  subst isNames
  have allPlain := List.forall_mem_map.mp plain
  rw [Batch.reports, List.map_map]
  refine (List.map_id _).symm.trans (List.map_congr_left fun report mem => ?_)
  have alone : (convert collation (batch.conversion extension report.name) ⟨before, [], []⟩).1 =
      batch.outcome collation extension report.name before :=
    (convert_writesIn (allPlain report mem).2 isOutput).outcome
  rw [Function.comp_apply, alone,
    ← converts.outcome_eq allPlain isInput isOutput apart report mem]
  rfl

/-- The count of the reports on files. -/
def Tally.of (reports : List Report) : Tally :=
  ⟨reports.countP (·.outcome.isOk), reports.countP (!·.outcome.isOk)⟩

/-- Every file is counted once. -/
theorem Tally.sum_of (reports : List Report) :
    (Tally.of reports).succeeded + (Tally.of reports).failed = reports.length := by
  rw [List.length_eq_countP_add_countP (·.outcome.isOk)]
  simp [Tally.of]

/-- No file is counted as failed if none failed. -/
theorem Tally.failed_of {reports : List Report} :
    (Tally.of reports).failed = 0 ↔ ¬ ∃ report ∈ reports, report.outcome.isOk = false := by
  simp [Tally.of]

section Whole

variable {listed : List Text} {reports : List Report}
  (known : (batch.outputFormat, extension) ∈ outputFormats)
  (named : desk.volume.IsNamed) (isListed : desk.volume.list batch.input = .ok listed)
  (isInput : desk.volume.find batch.input = .ok (inPlace, some .directory))
  (isOutput : desk.volume.find batch.output = .ok (outPlace, some .directory))
  (apart : inPlace ≠ outPlace)
  (isReports : reports = batch.reports collation extension desk.volume
    (Text.sorted (listed.filter isInputName)))

include known named isListed isInput isOutput apart isReports

/-- A batch reports on every file what comes of converting it alone, and fails on none. -/
theorem convertAll_reports : ∃ after,
    convertAll collation batch desk = (.ok (.of reports), after) ∧
      after.output = desk.output ++ reports.flatMap (Report.line extension) := by
  have isFormat : Named.find? Prod.fst batch.outputFormat outputFormats =
      some (batch.outputFormat, extension) := by
    simp only [outputFormats, List.mem_cons, List.not_mem_nil, or_false, Prod.mk.injEq] at known
    obtain ⟨isName, isExtension⟩ | ⟨isName, isExtension⟩ := known <;>
      rw [isName, isExtension] <;> rfl
  have plain : ∀ name ∈ Text.sorted (listed.filter isInputName),
      IsPlain name ∧ IsPlain (outputName extension name) := by
    intro name mem
    rw [Text.sorted, List.mem_mergeSort, List.mem_filter] at mem
    exact isPlain_of_isInputName known (named.list isListed name mem.1) mem.2
  obtain ⟨made, after, folded, names, converts, output⟩ :=
    foldlM_convertEntry collation batch extension (Text.sorted (listed.filter isInputName))
      ⟨0, 0⟩ desk
  obtain rfl := (converts.reports_eq names plain isInput isOutput apart).trans isReports.symm
  refine ⟨after, ?_, output⟩
  rw [convertAll_of_list (Volume.makeDirectories_of_directory isOutput) isFormat isListed, folded,
    Tally.foldl_add, Nat.zero_add, Nat.zero_add]
  rfl

/-- The program that converts a directory ends with the status 1 if it cannot convert some file by
itself, and with 0 otherwise. -/
theorem run_of_reports {texts : List Text} {arguments : Arguments}
    (reads : Arguments.read texts = .ok arguments) (isBatch : arguments.batch? = some batch) :
    (Program.run desk.volume collation texts).status =
      .ok (if ∃ report ∈ reports, report.outcome.isOk = false then 1 else 0) := by
  obtain ⟨after, ran, -⟩ : ∃ after, convertAll collation batch ⟨desk.volume, [], []⟩ =
      (.ok (Tally.of reports), after) ∧ _ :=
    convertAll_reports known named isListed isInput isOutput apart isReports
  have unfolded := bind_apply (convertAll collation batch) (fun tally => do
    print (Program.countLines tally)
    pure (if tally.failed = 0 then 0 else 1)) ⟨desk.volume, [], []⟩
  rw [← Program.runArguments_of_batch isBatch, ran] at unfolded
  rw [Program.run, reads]
  dsimp only
  rw [Program.runTask_of_ok unfolded]
  simp only [Tally.failed_of, ite_not]

end Whole

/-- A batch from one directory into another one that is there fails on no file. It takes the files
whose names have the endings of schemas, in the order of their names, and reports on each of them
what comes of converting that file alone, in one line and in the counts. The program ends with the
status 1 exactly if one of them cannot be converted. -/
theorem convertAll_isolates_failures
    (known : (batch.outputFormat, extension) ∈ outputFormats) (named : desk.volume.IsNamed)
    (isInput : desk.volume.find batch.input = .ok (inPlace, some .directory))
    (isOutput : desk.volume.find batch.output = .ok (outPlace, some .directory))
    (apart : inPlace ≠ outPlace) :
    ∃ (listed names : List Text) (reports : List Report) (after : Desk),
      desk.volume.list batch.input = .ok listed ∧
      names.Perm (listed.filter isInputName) ∧
      names.Pairwise (fun earlier later => earlier.isAtMost later = true) ∧
      reports = (names.map fun name => ⟨name,
        (convert collation (batch.conversion extension name) ⟨desk.volume, [], []⟩).1⟩) ∧
      convertAll collation batch desk = (.ok ⟨reports.countP (·.outcome.isOk),
        reports.countP (!·.outcome.isOk)⟩, after) ∧
      reports.countP (·.outcome.isOk) + reports.countP (!·.outcome.isOk) = names.length ∧
      after.output = desk.output ++ reports.flatMap (Report.line extension) ∧
      ∀ texts arguments, Arguments.read texts = .ok arguments → arguments.batch? = some batch →
        (Program.run desk.volume collation texts).status =
          .ok (if ∃ report ∈ reports, report.outcome.isOk = false then 1 else 0) := by
  obtain ⟨listed, isListed⟩ : ∃ listed, desk.volume.list batch.input = .ok listed := by
    rw [Volume.list, isInput]
    exact ⟨_, rfl⟩
  obtain ⟨after, ran, output⟩ :=
    convertAll_reports known named isListed isInput isOutput apart rfl
  refine ⟨listed, Text.sorted (listed.filter isInputName), _, after, isListed,
    List.mergeSort_perm _ _, ?_, rfl, ran, ?_, output, ?_⟩
  · refine List.pairwise_mergeSort NameOrder.byCodePoint.trans (fun earlier later => ?_) _
    rw [Bool.or_eq_true]
    exact NameOrder.byCodePoint.total earlier later
  · exact (Tally.sum_of _).trans (List.length_map _)
  · intro texts arguments reads isBatch
    exact run_of_reports known named isListed isInput isOutput apart rfl reads isBatch

end Batches

open Schema

/-- A desk with two directories. In the one there are a document, a text that is no JSON, and a
directory with the name of a document. -/
def mixedDesk : Desk :=
  ⟨⟨[], [([Text.ofString "in"], .directory),
    (["in", "b.json"].map Text.ofString, .file (Text.encodeLoosely "\x7b")),
    (["in", "c.graphql"].map Text.ofString, .directory),
    (["in", "a.gql"].map Text.ofString, .file (Text.encodeLoosely (soleDocument none))),
    ([Text.ofString "out"], .directory)]⟩, [], []⟩

/-- The batch from the one directory into the other one. -/
def mixedBatch : Batch :=
  ⟨"in", "out", "sdl", .known none⟩

/-- The document is converted and the others are not, so that the program ends with the status 1. -/
theorem convertAll_isolates_mixedDesk : ∃ after,
    convertAll AsciiCollation.key mixedBatch mixedDesk = (.ok ⟨1, 2⟩, after) ∧
      (Program.run mixedDesk.volume AsciiCollation.key
        ["--input-dir", "in", "--output-dir", "out"]).status = .ok 1 := by
  have isInput : (mixedDesk.volume.find mixedBatch.input).toOption =
      some ([Text.ofString "in"], some .directory) := by
    decide +kernel
  have isOutput : (mixedDesk.volume.find mixedBatch.output).toOption =
      some ([Text.ofString "out"], some .directory) := by
    decide +kernel
  have isList : (mixedDesk.volume.list mixedBatch.input).toOption =
      some (["b.json", "c.graphql", "a.gql"].map Text.ofString) := by
    decide +kernel
  obtain ⟨listed, names, reports, after, isListed, perm, inOrder, rfl, ran, -, -, ends⟩ :=
    convertAll_isolates_failures (List.mem_cons_self ..)
      ⟨by decide, by decide⟩ (eq_ok_of_toOption isInput) (eq_ok_of_toOption isOutput) (by decide)
  rw [isListed] at isList
  cases isList
  have sortedInOrder : (["a.gql", "b.json", "c.graphql"].map Text.ofString).Pairwise
      (fun earlier later => earlier.isAtMost later = true) := by
    decide
  obtain rfl : names = ["a.gql", "b.json", "c.graphql"].map Text.ofString :=
    (perm.trans (by decide)).eq_of_pairwise
      (fun _ _ _ _ => Text.comesByRank_antisymm CodePoint.ext) inOrder sortedInOrder
  have documentIsConverted : (convert AsciiCollation.key
      (mixedBatch.conversion ".graphql" "a.gql") ⟨mixedDesk.volume, [], []⟩).1.isOk = true := by
    have succeeds : (soleResult (mixedBatch.conversion ".graphql" "a.gql") "out/a.graphql" none
        mixedDesk.volume).toOption.map Prod.fst = some true := by
      decide +kernel
    obtain ⟨⟨_, written⟩, isResult, rfl⟩ := Option.map_eq_some_iff.mp succeeds
    obtain ⟨after, converted, -⟩ := convert_of_soleResult AsciiCollation.key
      (mixedBatch.conversion ".graphql" "a.gql") ⟨mixedDesk.volume, [], []⟩ rfl (by decide) rfl rfl
      (eq_ok_of_toOption isResult)
    rw [converted]
    rfl
  have textFails : (convert AsciiCollation.key
      (mixedBatch.conversion ".graphql" "b.json") ⟨mixedDesk.volume, [], []⟩).1.isOk = false := by
    decide +kernel
  have directoryFails : (convert AsciiCollation.key
      (mixedBatch.conversion ".graphql" "c.graphql")
      ⟨mixedDesk.volume, [], []⟩).1.isOk = false := by
    decide +kernel
  refine ⟨after, ?_, ?_⟩
  · rw [ran]
    simp [documentIsConverted, textFails, directoryFails]
  · rw [ends _ _ rfl rfl]
    simp [documentIsConverted, textFails, directoryFails]

end Task

end SchemaOrder
