import SchemaOrder.Proofs.Command.StoredResults
import SchemaOrder.Proofs.Storing.DirectoryEntries

/-!
# Batches

The files of a directory are converted one after the other, each with the files that the ones before
it leave behind. `Converts` is this relation, and everything that a batch does is proved of it by
induction: nothing is written but results, no result is written into the directory that is read, and
a result stays until another one with the same name is written. Two files whose names differ only in
their extensions have results with the same name, so that the later one replaces the earlier one:
`convertAll_keeps_results` says what is left.
-/

namespace SchemaOrder

open Outcome
open SchemaOrder.Path (IsPlain)

variable {collation : Collation} {before after : Volume}

/-- A schema that is read from a file is read from the same file of another volume. -/
theorem Source.read_of_read {path : Text} {format : Option Text} {schema : Schema}
    (sameFile : ∀ content, after.read path = .ok content → before.read path = .ok content)
    (isRead : (namedFormat path format).read after = .ok schema) :
    (namedFormat path format).read before = .ok schema := by
  obtain ⟨known, isKnown, isRead⟩ := bind_eq_ok_iff.mp isRead
  obtain ⟨text, isText, isSchema⟩ := bind_eq_ok_iff.mp isRead
  obtain ⟨content, isContent, decoded⟩ := bind_eq_ok_iff.mp isText
  have sameContent : (before.read path).mapError Fault.file = .ok content :=
    mapError_eq_ok_iff.mpr (sameFile content (mapError_eq_ok_iff.mp isContent))
  exact bind_eq_ok_iff.mpr ⟨known, isKnown, bind_eq_ok_iff.mpr
    ⟨text, bind_eq_ok_iff.mpr ⟨content, sameContent, decoded⟩, isSchema⟩⟩

/-- A conversion gives the text that it gives with the same input in another volume. -/
theorem Conversion.text_of_read {conversion : Conversion} {text : Text}
    (sameFile : ∀ content, after.read conversion.input = .ok content →
      before.read conversion.input = .ok content)
    (isText : conversion.text collation after = .ok text) :
    conversion.text collation before = .ok text := by
  obtain ⟨schema, isRead, rest⟩ := bind_eq_ok_iff.mp isText
  exact bind_eq_ok_iff.mpr ⟨schema, Source.read_of_read sameFile isRead, rest⟩

namespace Task

variable {batch : Batch} {extension name : Text}

/-- The conversion of a file of a directory. -/
def Batch.conversion (batch : Batch) (extension name : Text) : Conversion where
  input := Path.join batch.input name
  output := some (Path.join batch.output (outputName extension name))
  outputFormat := batch.outputFormat
  inputFormat := none
  options := batch.options

/-- What came of a file of a directory. -/
structure Report where
  name : Text
  outcome : Except Fault Text

namespace Report

/-- The line that is printed. -/
def line (extension : Text) (report : Report) : Text :=
  match report.outcome with
  | .ok _ => "  OK  " ++ report.name ++ " -> " ++ outputName extension report.name ++ "\n"
  | .error fault => "  FAIL " ++ report.name ++ ": " ++ fault.report ++ "\n"

/-- Whether the file for the result was written: with the result, or emptied for a text that then
turned out to have no UTF-8. -/
def rewrites (report : Report) : Bool :=
  match report.outcome with
  | .ok _ | .error (.encoding _) => true
  | .error _ => false

end Report

/-- One more file is counted. -/
def Tally.add (tally : Tally) (report : Report) : Tally :=
  if report.outcome.isOk then { tally with succeeded := tally.succeeded + 1 }
  else { tally with failed := tally.failed + 1 }

/-- Files are counted by whether they were converted. -/
theorem Tally.foldl_add (tally : Tally) (reports : List Report) :
    reports.foldl Tally.add tally =
      ⟨tally.succeeded + reports.countP (·.outcome.isOk),
        tally.failed + reports.countP (!·.outcome.isOk)⟩ := by
  induction reports generalizing tally with
  | nil => rfl
  | cons report others inductionHypothesis =>
      rw [List.foldl_cons, inductionHypothesis, List.countP_cons, List.countP_cons, add]
      cases report.outcome.isOk <;> simp [Nat.add_assoc, Nat.add_comm 1]

/-- The files of a directory are converted one after the other, each with the files that the ones
before it leave behind. -/
inductive Converts (collation : Collation) (batch : Batch) (extension : Text) :
    Volume → List Report → Volume → Prop
  | done (volume : Volume) : Converts collation batch extension volume [] volume
  | step {desk converted : Desk} {report : Report} {reports : List Report} {before after : Volume}
      (atStart : desk.volume = before)
      (ran : convert collation (batch.conversion extension report.name) desk =
        (report.outcome, converted))
      (rest : Converts collation batch extension converted.volume reports after) :
      Converts collation batch extension before (report :: reports) after

/-- Converting a file of a directory never fails. What came of it is printed and counted. -/
theorem convertEntry_reports {desk converted : Desk} {outcome : Except Fault Text} (tally : Tally)
    (ran : convert collation (batch.conversion extension name) desk = (outcome, converted)) :
    ∃ after, convertEntry collation batch extension tally name desk =
        (.ok (tally.add ⟨name, outcome⟩), after) ∧
      after.volume = converted.volume ∧
      after.output = desk.output ++ Report.line extension ⟨name, outcome⟩ := by
  have silent : converted.output = desk.output := by
    rw [← convert_isSilent collation (batch.conversion extension name) desk, ran]
  have attempted : attempt (convert collation (batch.conversion extension name)) desk =
      (.ok outcome, converted) := by
    rw [attempt, ran]
  have unfolded : convertEntry collation batch extension tally name desk = _ :=
    bind_apply (attempt (convert collation (batch.conversion extension name))) _ desk
  rw [attempted] at unfolded
  rw [← silent]
  cases outcome with
  | ok text => exact ⟨_, unfolded, rfl, rfl⟩
  | error fault => exact ⟨_, unfolded, rfl, rfl⟩

/-- So does converting one file after the other. -/
theorem foldlM_convertEntry (collation : Collation) (batch : Batch) (extension : Text)
    (names : List Text) (tally : Tally) (desk : Desk) :
    ∃ reports after, names.foldlM (convertEntry collation batch extension) tally desk =
        (.ok (reports.foldl Tally.add tally), after) ∧
      reports.map Report.name = names ∧
      Converts collation batch extension desk.volume reports after.volume ∧
      after.output = desk.output ++ reports.flatMap (Report.line extension) := by
  induction names generalizing tally desk with
  | nil => exact ⟨[], desk, rfl, rfl, .done _, (List.append_nil _).symm⟩
  | cons name others inductionHypothesis =>
      rcases ran : convert collation (batch.conversion extension name) desk with
        ⟨outcome, converted⟩
      obtain ⟨reported, isReported, sameVolume, printed⟩ := convertEntry_reports tally ran
      obtain ⟨reports, after, folded, names, converts, output⟩ :=
        inductionHypothesis (tally.add ⟨name, outcome⟩) reported
      refine ⟨⟨name, outcome⟩ :: reports, after, ?_, by rw [List.map_cons, names],
        .step rfl ran (sameVolume ▸ converts), ?_⟩
      · rw [List.foldlM_cons, bind_apply, isReported]
        exact folded
      · rw [output, printed, List.append_assoc, List.flatMap_cons]

/-- A place where a batch writes: that of a result in the directory for the results. -/
def Batch.Writes (batch : Batch) (extension : Text) (reports : List Report) (after : Volume)
    (place : List Text) : Prop :=
  ∃ directory report, after.directoryAt? batch.output = some directory ∧ report ∈ reports ∧
    report.rewrites = true ∧ place = directory ++ [outputName extension report.name]

/-- Converting a file writes its result and nothing else. -/
theorem convert_writes {desk converted : Desk} {report : Report}
    (plain : IsPlain (outputName extension report.name))
    (ran : convert collation (batch.conversion extension report.name) desk =
      (report.outcome, converted)) :
    desk.volume.Keeps (batch.Writes extension [report] converted.volume) converted.volume := by
  have atPlace : ∀ {place : List Text} {content : Bytes}, report.rewrites = true →
      converted.volume.find (Path.join batch.output (outputName extension report.name)) =
        .ok (place, some (.file content)) →
      batch.Writes extension [report] converted.volume place := by
    intro place content rewrites found
    obtain ⟨-, -, directory, leads, isPlace, -⟩ := (Volume.find_join_eq_ok_iff plain).mp found
    exact ⟨directory, report, leads, List.mem_singleton_self _, rewrites, isPlace⟩
  cases isOutcome : report.outcome with
  | ok text =>
      rw [isOutcome] at ran
      obtain ⟨-, place, content, -, found, keeps⟩ := convert_eq_ok rfl plain.isEmpty_join ran
      refine keeps.imp ?_
      rintro _ rfl
      exact atPlace (by rw [Report.rewrites, isOutcome]) found
  | error fault =>
      rw [isOutcome] at ran
      rcases convert_eq_error ran with
        keeps | ⟨output, text, reason, place, isOutput, -, -, rfl, found, keeps⟩
      · exact keeps.imp fun _ => False.elim
      · cases isOutput
        refine keeps.imp ?_
        rintro _ rfl
        exact atPlace (by rw [Report.rewrites, isOutcome]) found

namespace Converts

variable {reports : List Report} {place : List Text}

/-- A batch of files in two parts is one part after the other. -/
theorem of_append {earlier later : List Report}
    (converts : Converts collation batch extension before (earlier ++ later) after) :
    ∃ between, Converts collation batch extension before earlier between ∧
      Converts collation batch extension between later after := by
  induction earlier generalizing before with
  | nil => exact ⟨before, .done before, converts⟩
  | cons first others inductionHypothesis =>
      cases converts with
      | step atStart ran rest =>
          obtain ⟨between, front, back⟩ := inductionHypothesis rest
          exact ⟨between, .step atStart ran front, back⟩

/-- A batch writes results and nothing else. -/
theorem writes (converts : Converts collation batch extension before reports after)
    (plain : ∀ report ∈ reports, IsPlain (outputName extension report.name)) :
    before.Keeps (batch.Writes extension reports after) after := by
  induction converts with
  | done volume => exact .refl volume
  | step atStart ran rest inductionHypothesis =>
      subst atStart
      obtain ⟨plainFirst, plainOthers⟩ := List.forall_mem_cons.mp plain
      have others := inductionHypothesis plainOthers
      refine ((convert_writes plainFirst ran).imp ?_).trans (others.imp ?_)
      · rintro place ⟨directory, report, leads, mem, rewrites, isPlace⟩
        exact ⟨directory, report, others.directoryAt? leads,
          List.mem_cons.mpr (.inl (List.mem_singleton.mp mem)), rewrites, isPlace⟩
      · rintro place ⟨directory, report, leads, mem, rewrites, isPlace⟩
        exact ⟨directory, report, leads, List.mem_cons_of_mem _ mem, rewrites, isPlace⟩

/-- No result is written into the directory that is read, if it is not the one for the results. So
every file has the text that it has before the batch. -/
theorem text (converts : Converts collation batch extension before reports after)
    (plain : ∀ report ∈ reports,
      IsPlain report.name ∧ IsPlain (outputName extension report.name))
    (isInput : before.directoryAt? batch.input = some place)
    (apart : after.directoryAt? batch.output ≠ some place) {report : Report} {text : Text}
    (mem : report ∈ reports) (isText : report.outcome = .ok text) :
    (batch.conversion extension report.name).text collation before = .ok text := by
  induction converts with
  | done => cases mem
  | @step desk converted first reports _ after atStart ran rest inductionHypothesis =>
      subst atStart
      obtain ⟨plainFirst, plainOthers⟩ := List.forall_mem_cons.mp plain
      have keeps := convert_writes plainFirst.2 ran
      rcases List.mem_cons.mp mem with rfl | mem
      · rw [isText] at ran
        exact (convert_eq_ok rfl plainFirst.2.isEmpty_join ran).1
      · have stillInput := keeps.directoryAt? isInput
        refine Conversion.text_of_read (fun content => ?_)
          (inductionHypothesis plainOthers stillInput apart mem)
        refine Volume.read_join_of_fileAt? (plainOthers report mem).1 isInput stillInput ?_
        refine keeps.file _ ?_
        rintro ⟨directory, _, leads, -, -, isPlace⟩
        obtain ⟨rfl, -⟩ := List.append_inj' isPlace rfl
        exact apart ((rest.writes fun report mem => (plainOthers report mem).2).directoryAt? leads)

/-- A result stays until one with the same name is written. -/
theorem result {report : Report} {later : List Report} {text : Text}
    (converts : Converts collation batch extension before (report :: later) after)
    (plain : ∀ other ∈ report :: later, IsPlain (outputName extension other.name))
    (isText : report.outcome = .ok text)
    (last : ∀ other ∈ later, outputName extension other.name = outputName extension report.name →
      other.rewrites = false) :
    ∃ content, text.encode = .ok content ∧
      after.read (Path.join batch.output (outputName extension report.name)) = .ok content := by
  cases converts with
  | step atStart ran rest =>
      obtain ⟨plainFirst, plainOthers⟩ := List.forall_mem_cons.mp plain
      have keeps := rest.writes plainOthers
      rw [isText] at ran
      obtain ⟨-, _, content, encoded, found, -⟩ := convert_eq_ok rfl plainFirst.isEmpty_join ran
      refine ⟨content, encoded, ?_⟩
      obtain ⟨usable, short, directory, leads, isAt⟩ :=
        (Volume.read_join_eq_ok_iff plainFirst).mp (Volume.read_eq_ok_iff.mpr ⟨_, found⟩)
      refine (Volume.read_join_eq_ok_iff plainFirst).mpr
        ⟨usable, short, directory, keeps.directoryAt? leads, (keeps.file _ ?_).trans isAt⟩
      rintro ⟨other, report', leads', mem, rewrites, isPlace⟩
      obtain ⟨-, sameName⟩ := List.append_inj' isPlace rfl
      rw [last report' mem (List.singleton_inj.mp sameName).symm] at rewrites
      cases rewrites

end Converts

/-- A batch whose directories are there converts one file after the other. -/
theorem convertAll_of_list {desk : Desk} {made : Volume} {format : Text × Text}
    {listed : List Text} (isMade : desk.volume.makeDirectories batch.output = (made, .ok ()))
    (isFormat : Named.find? Prod.fst batch.outputFormat outputFormats = some format)
    (isListed : made.list batch.input = .ok listed) :
    convertAll collation batch desk =
      (Text.sorted (listed.filter isInputName)).foldlM (convertEntry collation batch format.2)
        ⟨0, 0⟩ { desk with volume := made } := by
  have makes : makeDirectories batch.output desk = (.ok (), { desk with volume := made }) :=
    makeDirectories_eq_ok_iff.mpr ⟨made, isMade, rfl⟩
  rw [convertAll, bind_apply, makes]
  simp only [isFormat, bind_apply, volume, ofExcept, isListed]
  rfl

/-- A batch makes the directory for the results, takes the names of the files that hold schemas and
converts one file after the other. -/
theorem convertAll_eq_ok {desk after : Desk} {tally : Tally}
    (ran : convertAll collation batch desk = (.ok tally, after)) :
    ∃ made extension listed reports, desk.volume.makeDirectories batch.output = (made, .ok ()) ∧
      (batch.outputFormat, extension) ∈ outputFormats ∧ made.list batch.input = .ok listed ∧
      reports.map Report.name = Text.sorted (listed.filter isInputName) ∧
      Converts collation batch extension made reports after.volume ∧
      after.output = desk.output ++ reports.flatMap (Report.line extension) ∧
      tally = ⟨reports.countP (·.outcome.isOk), reports.countP (!·.outcome.isOk)⟩ := by
  obtain ⟨⟨⟩, _, makes, ran⟩ := bind_eq_ok_iff.mp ran
  obtain ⟨made, isMade, rfl⟩ := makeDirectories_eq_ok_iff.mp makes
  cases isFormat : Named.find? Prod.fst batch.outputFormat outputFormats with
  | none =>
      rw [isFormat] at ran
      cases ran
  | some format =>
      rw [isFormat] at ran
      obtain ⟨_, _, isVolume, ran⟩ := bind_eq_ok_iff.mp ran
      cases isVolume
      obtain ⟨listed, _, lists, ran⟩ := bind_eq_ok_iff.mp ran
      obtain ⟨isListed, rfl⟩ := ofExcept_eq_ok_iff.mp lists
      obtain ⟨reports, _, folded, names, converts, output⟩ :=
        foldlM_convertEntry collation batch format.2 (Text.sorted (listed.filter isInputName))
          ⟨0, 0⟩ { desk with volume := made }
      obtain ⟨sameTally, rfl⟩ := Prod.mk.inj (ran.symm.trans folded)
      have mem := List.mem_of_find?_eq_some isFormat
      have isName : format.1 = batch.outputFormat := by
        simpa using List.find?_some isFormat
      refine ⟨made, format.2, listed, reports, isMade, isName ▸ mem,
        mapError_eq_ok_iff.mp isListed, names, converts, output, ?_⟩
      rw [Except.ok.inj sameTally, Tally.foldl_add, Nat.zero_add, Nat.zero_add]

/-- Names of files that hold schemas are plain, and so are those of their results. -/
theorem isPlain_of_isInputName (known : (batch.outputFormat, extension) ∈ outputFormats)
    (whole : Path.separator ∉ name) (isInput : isInputName name = true) :
    IsPlain name ∧ IsPlain (outputName extension name) := by
  constructor
  · obtain ⟨ending, mem, ends⟩ := List.any_eq_true.mp isInput
    have shorter := (List.isSuffixOf_iff_suffix.mp ends).length_le
    rw [Text.lower, List.length_map] at shorter
    have long : ∀ ending ∈ inputExtensions, 2 < ending.length := by decide
    exact .of_length whole ((long ending mem).trans_le shorter)
  · have fine : ∀ format ∈ outputFormats, Path.separator ∉ format.2 ∧ 2 < format.2.length := by
      decide
    obtain ⟨wholeEnding, long⟩ := fine _ known
    refine .of_length ?_ ?_
    · rw [outputName, List.mem_append, not_or]
      exact ⟨fun mem => whole (Path.mem_of_mem_dropExtension mem), wholeEnding⟩
    · rw [outputName, List.length_append]
      exact Nat.lt_add_left _ long

/-- Whatever text a batch reports, the file alone gives it as well, and it is in its output file
unless a later file of the batch has a result with the same name. The lines that are printed and the
counts are those of the reports, one for each file that holds a schema. -/
theorem convertAll_keeps_results {desk after : Desk} {tally : Tally} {place : List Text}
    (named : desk.volume.IsNamed) (isInput : desk.volume.directoryAt? batch.input = some place)
    (apart : after.volume.directoryAt? batch.output ≠ some place)
    (ran : convertAll collation batch desk = (.ok tally, after)) :
    ∃ extension listed reports, (batch.outputFormat, extension) ∈ outputFormats ∧
      (desk.volume.makeDirectories batch.output).1.list batch.input = .ok listed ∧
      reports.map Report.name = Text.sorted (listed.filter isInputName) ∧
      after.output = desk.output ++ reports.flatMap (Report.line extension) ∧
      tally = ⟨reports.countP (·.outcome.isOk), reports.countP (!·.outcome.isOk)⟩ ∧
      ∀ earlier report later text, reports = earlier ++ report :: later →
        report.outcome = .ok text →
        (∃ alone, convert collation
            { batch.conversion extension report.name with output := none } desk =
          (.ok text, alone)) ∧
        ((∀ other ∈ later, outputName extension other.name = outputName extension report.name →
            other.rewrites = false) →
          ∃ content, text.encode = .ok content ∧ after.volume.read
            (Path.join batch.output (outputName extension report.name)) = .ok content) := by
  obtain ⟨made, extension, listed, reports, isMade, known, isListed, names, converts, output,
    counted⟩ := convertAll_eq_ok ran
  have keeps := Volume.makeDirectories_keeps desk.volume batch.output
  have madeNamed := named.makeDirectories batch.output
  rw [isMade] at keeps madeNamed
  have plain : ∀ report ∈ reports,
      IsPlain report.name ∧ IsPlain (outputName extension report.name) := by
    intro report mem
    have isName := List.mem_map_of_mem (f := Report.name) mem
    rw [names, Text.sorted, List.mem_mergeSort, List.mem_filter] at isName
    exact isPlain_of_isInputName known (madeNamed.list isListed _ isName.1) isName.2
  refine ⟨extension, listed, reports, known, by rw [isMade]; exact isListed, names, output, counted,
    ?_⟩
  intro earlier report later text split isText
  have mem : report ∈ reports := split ▸ List.mem_append_right earlier (List.mem_cons_self ..)
  constructor
  · have stillInput := keeps.directoryAt? isInput
    refine convert_of_text rfl (Conversion.text_of_read (fun content => ?_)
      (converts.text plain stillInput apart mem isText))
    exact Volume.read_join_of_fileAt? (plain report mem).1 isInput stillInput (keeps.file _ id)
  · intro last
    rw [split] at converts
    obtain ⟨between, -, converts⟩ := converts.of_append
    refine converts.result (fun other mem => (plain other ?_).2) isText last
    exact split ▸ List.mem_append_right earlier mem

open Schema

/-- A desk with two files in a directory whose names differ only in their extensions. -/
def twinDesk : Desk :=
  ⟨⟨[], [([Text.ofString "in"], .directory),
    (["in", "x.gql"].map Text.ofString,
      .file (Text.encodeLoosely (soleDocument (some (Text.ofString "first"))))),
    (["in", "x.graphql"].map Text.ofString,
      .file (Text.encodeLoosely (soleDocument (some (Text.ofString "second")))))]⟩, [], []⟩

/-- The batch that converts both. -/
def twinBatch : Batch :=
  ⟨"in", "out", "sdl", .known none⟩

/-- The name of both results. -/
def twinOutput : Text :=
  "out/x.graphql"

/-- The names of both files are those of files that hold schemas, and in order. -/
theorem sorted_twinNames :
    Text.sorted ((["x.gql", "x.graphql"].map Text.ofString).filter isInputName) =
      ["x.gql", "x.graphql"].map Text.ofString :=
  (List.mergeSort_of_pairwise (by decide)).trans (by decide)

/-- Both files are converted, and the result of the second one is left. -/
theorem convertAll_twinDesk : ∃ after,
    convertAll AsciiCollation.key twinBatch twinDesk = (.ok ⟨2, 0⟩, after) ∧
      after.output = "  OK  x.gql -> x.graphql\n  OK  x.graphql -> x.graphql\n" ∧
      after.volume.directoryAt? twinBatch.output = some [Text.ofString "out"] ∧
      after.volume.read twinOutput =
        .ok (Text.encodeLoosely (soleDocument (some (Text.ofString "second")))) := by
  have succeeds : (do
      let ⟨⟩ ← (twinDesk.volume.makeDirectories twinBatch.output).2.mapError .file
      let made := (twinDesk.volume.makeDirectories twinBatch.output).1
      let listed ← (made.list twinBatch.input).mapError .file
      let first ← soleResult (twinBatch.conversion ".graphql" "x.gql") twinOutput
        (some "first") made
      let second ← soleResult (twinBatch.conversion ".graphql" "x.graphql") twinOutput
        (some "second") first.2
      let content ← (second.2.read twinOutput).mapError .file
      return (listed, first.1 && second.1, second.2.directoryAt? twinBatch.output, content) :
        Except Fault (List Text × Bool × Option (List Text) × Bytes)).toOption =
      some (["x.gql", "x.graphql"].map Text.ofString, true, some [Text.ofString "out"],
        Text.encodeLoosely (soleDocument (some (Text.ofString "second")))) := by
    decide +kernel
  obtain ⟨⟨⟩, isMade, rest⟩ := Outcome.bind_eq_ok_iff.mp (eq_ok_of_toOption succeeds)
  obtain ⟨listed, isListed, rest⟩ := Outcome.bind_eq_ok_iff.mp rest
  obtain ⟨⟨isFirst, between⟩, firstResult, rest⟩ := Outcome.bind_eq_ok_iff.mp rest
  obtain ⟨⟨isSecond, last⟩, secondResult, rest⟩ := Outcome.bind_eq_ok_iff.mp rest
  obtain ⟨content, isRead, given⟩ := Outcome.bind_eq_ok_iff.mp rest
  simp only [pure_eq_ok_iff, Prod.mk.injEq, Bool.and_eq_true] at given
  obtain ⟨rfl, ⟨rfl, rfl⟩, leads, rfl⟩ := given
  rw [mapError_eq_ok_iff] at isMade isListed isRead
  obtain ⟨_, firstRan, rfl⟩ := convert_of_soleResult AsciiCollation.key
    (twinBatch.conversion ".graphql" "x.gql")
    { twinDesk with volume := (twinDesk.volume.makeDirectories twinBatch.output).1 }
    rfl (by decide) rfl rfl firstResult
  obtain ⟨first, firstReported, sameVolume, firstPrinted⟩ := convertEntry_reports ⟨0, 0⟩ firstRan
  rw [← sameVolume] at secondResult
  obtain ⟨_, secondRan, rfl⟩ := convert_of_soleResult AsciiCollation.key
    (twinBatch.conversion ".graphql" "x.graphql") first rfl (by decide) rfl rfl secondResult
  obtain ⟨second, secondReported, stillSame, secondPrinted⟩ :=
    convertEntry_reports ⟨1, 0⟩ secondRan
  have isFormat : Named.find? Prod.fst twinBatch.outputFormat outputFormats =
      some (Text.ofString "sdl", Text.ofString ".graphql") := rfl
  refine ⟨second, ?_, by rw [secondPrinted, firstPrinted]; rfl, stillSame ▸ leads,
    stillSame ▸ isRead⟩
  rw [convertAll_of_list (Prod.ext rfl isMade) isFormat isListed, sorted_twinNames]
  exact bind_eq_ok_iff.mpr
    ⟨_, _, firstReported, bind_eq_ok_iff.mpr ⟨_, _, secondReported, rfl⟩⟩

/-- The result of the second file is the one that the file alone gives. -/
theorem convertAll_keeps_twinDesk : ∃ after text content,
    convertAll AsciiCollation.key twinBatch twinDesk = (.ok ⟨2, 0⟩, after) ∧
      (∃ alone, convert AsciiCollation.key
          { twinBatch.conversion ".graphql" "x.graphql" with output := none } twinDesk =
        (.ok text, alone)) ∧
      text.encode = .ok content ∧ after.volume.read twinOutput = .ok content := by
  obtain ⟨after, ran, -, leads, -⟩ := convertAll_twinDesk
  have isInput : twinDesk.volume.directoryAt? twinBatch.input = some [Text.ofString "in"] := by
    decide +kernel
  have apart : after.volume.directoryAt? twinBatch.output ≠ some [Text.ofString "in"] := by
    rw [leads]
    decide
  have isList : ((twinDesk.volume.makeDirectories twinBatch.output).1.list
      twinBatch.input).toOption = some (["x.gql", "x.graphql"].map Text.ofString) := by
    decide +kernel
  obtain ⟨extension, listed, reports, known, isListed, names, -, counted, kept⟩ :=
    convertAll_keeps_results ⟨by decide, by decide⟩ isInput apart ran
  obtain rfl : extension = ".graphql" := by
    simpa [twinBatch, outputFormats, Text.ofString] using known
  rw [isListed] at isList
  cases isList
  rw [sorted_twinNames] at names
  obtain ⟨first, others, rfl, -, names⟩ := List.map_eq_cons_iff.mp names
  obtain ⟨second, others, rfl, isName, names⟩ := List.map_eq_cons_iff.mp names
  obtain rfl := List.map_eq_nil_iff.mp names
  have converted : second.outcome.isOk = true :=
    List.countP_eq_length.mp (congrArg Tally.succeeded counted).symm second (by simp)
  cases isText : second.outcome with
  | error fault =>
      rw [isText] at converted
      cases converted
  | ok text =>
      obtain ⟨alone, stays⟩ := kept [first] second [] text rfl isText
      obtain ⟨content, encoded, isRead⟩ := stays (List.forall_mem_nil _)
      rw [isName] at alone isRead
      exact ⟨after, text, content, ran, alone, encoded, isRead⟩

/-- The result of the first file is lost: what is left is not the text that the file alone gives. -/
theorem convertAll_loses_twinDesk : ∃ after alone text content,
    convertAll AsciiCollation.key twinBatch twinDesk = (.ok ⟨2, 0⟩, after) ∧
      after.output = "  OK  x.gql -> x.graphql\n  OK  x.graphql -> x.graphql\n" ∧
      convert AsciiCollation.key
        { twinBatch.conversion ".graphql" "x.gql" with output := none } twinDesk =
        (.ok text, alone) ∧
      text.encode = .ok content ∧ after.volume.read twinOutput ≠ .ok content := by
  obtain ⟨after, ran, printed, -, isRead⟩ := convertAll_twinDesk
  have succeeds : (do
      let schema ← (Source.namedFormat (Path.join "in" "x.gql") none).read twinDesk.volume
      return isSole (some "first") schema : Except Fault Bool).toOption = some true := by
    decide +kernel
  have encoded : (soleDocument (some (Text.ofString "first"))).encode.toOption =
      some (Text.encodeLoosely (soleDocument (some (Text.ofString "first")))) := by
    decide +kernel
  have differs : Text.encodeLoosely (soleDocument (some (Text.ofString "second"))) ≠
      Text.encodeLoosely (soleDocument (some (Text.ofString "first"))) := by
    decide +kernel
  obtain ⟨schema, given, rest⟩ := Outcome.bind_eq_ok_iff.mp (eq_ok_of_toOption succeeds)
  obtain ⟨alone, aloneRan⟩ := convert_of_text (by rfl) (text_of_isSole rfl rfl given
    (pure_eq_ok_iff.mp rest) : ({ twinBatch.conversion ".graphql" "x.gql" with output := none } :
      Conversion).text AsciiCollation.key twinDesk.volume = _)
  refine ⟨after, alone, _, _, ran, printed, aloneRan, eq_ok_of_toOption encoded, ?_⟩
  rw [isRead]
  exact fun same => differs (Except.ok.inj same)

end Task

end SchemaOrder
