import SchemaOrder.Command.Program
import SchemaOrder.Proofs.Command.Batches
import SchemaOrder.Proofs.Command.ReadArguments
import SchemaOrder.Proofs.Order.AcceptedOptions
import SchemaOrder.Proofs.Schema.DescribedFaults

/-!
# How the program ends

A failure that can be foreseen ends the program with a line about it; in a directory, it is reported
and the next file is converted. All failures can be foreseen but one: a description in JSON may lack
what it is asked for while it is read. `ComesTo` says of a task how it may fail and what it may
give, wherever it starts, and is shown along the tasks of the program; `run_ends` says what this
makes of a whole run.
-/

namespace SchemaOrder

open Outcome

namespace Fault

/-- A fault that can be foreseen. -/
def IsForeseen (fault : Fault) : Prop :=
  fault.kind.isForeseen = true

/-- A fault that can be foreseen, or something that a description in JSON does not have. -/
def IsForeseenOrAccess (fault : Fault) : Prop :=
  fault.IsForeseen ∨ ∃ access, fault = .schema (.introspection (.access access))

/-- Every refusal of the file system can be foreseen. -/
theorem file_isForeseen (fault : FileFault) : (Fault.file fault).IsForeseen := by
  cases fault with
  | refused refusal => cases refusal <;> rfl
  | embeddedNull | notEncodable => rfl

/-- So can whatever keeps a schema from being written as a document. -/
theorem print_isForeseen (fault : Schema.PrintFault) : (Fault.print fault).IsForeseen := by
  cases fault with
  | default fault => cases fault <;> rfl
  | unexpectedKind => rfl

end Fault

/-- Whatever keeps a schema from being written can be foreseen. -/
theorem Schema.write_failsWithin (format : Text) (schema : Schema) :
    FailsWithin Fault.IsForeseen (schema.write format) := by
  unfold write
  split
  · exact .mapError Fault.print_isForeseen
  · split
    · refine .mapError fun fault => ?_
      cases fault <;> rfl
    · exact .error rfl

namespace Source

/-- The fault of a document that is not trusted can be foreseen: its breaches of the rules are
looked for before a schema is made of it. -/
theorem readDocument_failsWithin (source : Text) :
    FailsWithin Fault.IsForeseen (readDocument source false) := by
  have parses : FailsWithin Fault.IsForeseen
      ((Document.parse source).mapError (.document · source)) := .mapError fun _ => rfl
  refine parses.bind fun document => ?_
  simp only [Bool.false_eq_true, if_false]
  split
  · next clean =>
      have noBreaches := List.isEmpty_iff.mp clean
      exact (Schema.ofDocument_failsWithin noBreaches).mapError_of fun _ => id
  · exact .error rfl

/-- An introspection result is read, or the fault can be foreseen, or something is missing. -/
theorem readIntrospection_failsWithin (source : Text) :
    FailsWithin Fault.IsForeseenOrAccess (readIntrospection source) := by
  have parses : FailsWithin Fault.IsForeseenOrAccess
      ((Json.parse source).mapError (.json · source)) :=
    .mapError fun fault => .inl (by cases fault <;> rfl)
  have hasResult (value : Json) :
      FailsWithin Fault.IsForeseenOrAccess (introspectionResult value) := by
    unfold introspectionResult
    extract_lets data
    split
    · exact .ok _
    · exact .error (.inl rfl)
  refine parses.bind fun value => (hasResult value).bind fun result => ?_
  refine (Schema.ofIntrospection_failsWithin result).mapError_of ?_
  rintro fault (isForeseen | ⟨access, rfl⟩)
  · exact .inl isForeseen
  · exact .inr ⟨access, rfl⟩

/-- A schema is read, or the fault can be foreseen, or something is missing in a description. -/
theorem read_failsWithin (path : Text) (format : Option Text) (volume : Volume) :
    FailsWithin Fault.IsForeseenOrAccess ((namedFormat path format).read volume) := by
  have named : FailsWithin Fault.IsForeseenOrAccess (formatOf path format) := by
    unfold formatOf
    dsimp only
    split
    · exact .ok _
    · split
      · exact .ok _
      · split
        · exact .ok _
        · exact .error (.inl rfl)
  have isText : FailsWithin Fault.IsForeseenOrAccess (fileText volume path) :=
    FailsWithin.bind (.mapError fun fault => .inl (Fault.file_isForeseen fault)) fun _ =>
      .mapError fun _ => .inl rfl
  refine named.bind fun known => isText.bind fun text => ?_
  cases known with
  | document => exact (readDocument_failsWithin text).imp fun _ => .inl
  | introspection => exact readIntrospection_failsWithin text

end Source

namespace Task

variable {α β : Type} {desk : Desk} {allowed : Fault → Prop} {holds : α → Prop}

/-- What may come of a task: the faults that it may fail with and the results that it may give. -/
structure ComesTo (allowed : Fault → Prop) (holds : α → Prop) (task : Task α) (desk : Desk) :
    Prop where
  fails : FailsWithin allowed (task desk).1
  gives : ∀ result, (task desk).1 = .ok result → holds result

namespace ComesTo

/-- A result that is there. -/
theorem pure {result : α} (isResult : holds result) :
    ComesTo allowed holds (Pure.pure result) desk := by
  refine ⟨.ok _, ?_⟩
  rintro _ ⟨⟩
  exact isResult

/-- A result that is known already, or a fault. -/
theorem ofExcept {outcome : Except Fault α} (fails : FailsWithin allowed outcome) :
    ComesTo allowed (fun result => outcome = .ok result) (Task.ofExcept outcome) desk :=
  ⟨fails, fun _ => id⟩

/-- A task that leaves the files as they are comes to what is known of its outcome. -/
theorem of_looks {task : Task α} {outcome : Except Fault α} (looks : Looks task desk outcome)
    (fails : FailsWithin allowed outcome) (gives : ∀ result, outcome = .ok result → holds result) :
    ComesTo allowed holds task desk := by
  obtain ⟨rfl, -⟩ := looks
  exact ⟨fails, gives⟩

/-- A task that is sure to succeed. -/
theorem of_ok {task : Task α} {result : α} (given : (task desk).1 = .ok result)
    (isResult : holds result) : ComesTo allowed holds task desk := by
  constructor
  · rw [given]
    exact .ok _
  · rw [given]
    rintro _ ⟨⟩
    exact isResult

/-- More faults may be allowed. -/
theorem allow {allowed' : Fault → Prop} {task : Task α} (comes : ComesTo allowed holds task desk)
    (more : ∀ fault, allowed fault → allowed' fault) : ComesTo allowed' holds task desk :=
  ⟨comes.fails.imp more, comes.gives⟩

/-- Less may be said of the results. -/
theorem imp {holds' : α → Prop} {task : Task α} (comes : ComesTo allowed holds task desk)
    (weaker : ∀ result, holds result → holds' result) : ComesTo allowed holds' task desk :=
  ⟨comes.fails, fun result given => weaker result (comes.gives result given)⟩

/-- A task is followed by another one, which may rely on what the first one gives. -/
theorem bind {first : Task α} {next : α → Task β} {holds' : β → Prop}
    (comes : ComesTo allowed holds first desk)
    (further : ∀ middle between, holds middle → ComesTo allowed holds' (next middle) between) :
    ComesTo allowed holds' (first >>= next) desk := by
  have unfolded := bind_apply first next desk
  obtain ⟨fails, gives⟩ := comes
  rcases ran : first desk with ⟨fault | middle, between⟩
  · rw [ran] at fails unfolded
    constructor
    · rw [unfolded]
      exact .error (fails fault rfl)
    · rw [unfolded]
      rintro _ ⟨⟩
  · rw [ran] at gives unfolded
    obtain ⟨fails', gives'⟩ := further middle between (gives middle rfl)
    constructor
    · rw [unfolded]
      exact fails'
    · rw [unfolded]
      exact gives'

/-- A task that is sure to succeed is done before another one. -/
theorem andThen {first : Task α} {next : α → Task β} {middle : α} {holds' : β → Prop}
    (given : (first desk).1 = .ok middle)
    (further : ∀ between, ComesTo allowed holds' (next middle) between) :
    ComesTo allowed holds' (first >>= next) desk := by
  have comes : ComesTo allowed (fun result => result = middle) first desk := of_ok given rfl
  refine comes.bind ?_
  rintro _ between rfl
  exact further between

end ComesTo

/-- A fault of the file system. -/
def IsFileFault (fault : Fault) : Prop :=
  ∃ refused, fault = .file refused

/-- A fault that can be foreseen, or one that a file of a format is not read for. -/
def IsForeseenOrUnread (path : Text) (format : Option Text) (volume : Volume) (fault : Fault) :
    Prop :=
  fault.IsForeseen ∨ (Source.namedFormat path format).read volume = .error fault

/-- A schema that is loaded is intact. -/
theorem load_comesTo (path : Text) (format : Option Text) :
    ComesTo (IsForeseenOrUnread path format desk.volume) Schema.Intact (load path format) desk :=
  .of_looks (load_looks path format) (fun _ => .inr) fun _ => Source.read_intact

section Sorting

variable {collation : Collation} {options : ComparisonOptions} {schema : Schema}
  (orders : FailsWithin Fault.IsForeseen ((options.order collation).mapError .options))

include orders

/-- An intact schema is sorted where there is an order of names. -/
theorem sort_comesTo (intact : schema.Intact) :
    ComesTo Fault.IsForeseen (fun _ => True) (sort collation options schema) desk := by
  refine .of_looks (sort_looks options schema) (orders.bind fun order => ?_) fun _ _ => trivial
  obtain ⟨sorted, sorts, -⟩ := intact.sorts order
  rw [Schema.sorted, sorts]
  exact .ok _

/-- Whether a schema is sorted is told where there is an order of names. -/
theorem isSorted_comesTo :
    ComesTo Fault.IsForeseen (fun _ => True) (isSorted collation options schema) desk :=
  .of_looks (isSorted_looks options schema) (orders.bind fun _ => .ok _) fun _ _ => trivial

/-- An intact schema has a fingerprint where there is an order of names, unless a fault that can be
foreseen keeps it from being written. -/
theorem fingerprint_comesTo (intact : schema.Intact) :
    ComesTo Fault.IsForeseen (fun _ => True) (fingerprint collation options schema) desk := by
  refine (sort_comesTo orders intact).bind fun sorted between _ => ?_
  refine (ComesTo.ofExcept ?_).imp fun _ _ => trivial
  have prints : FailsWithin Fault.IsForeseen (sorted.print.mapError .print) :=
    .mapError Fault.print_isForeseen
  exact prints.bind fun text => FailsWithin.bind (.mapError fun _ => rfl) fun _ => .ok _

end Sorting

/-- Directories are made, or the file system refuses it. -/
theorem makeDirectories_comesTo (path : Text) :
    ComesTo IsFileFault (fun _ => True) (makeDirectories path) desk :=
  .andThen rfl fun _ => .andThen rfl fun _ =>
    (ComesTo.ofExcept (.mapError fun refused => ⟨refused, rfl⟩)).imp fun _ _ => trivial

/-- A file is written, or the file system refuses it, or the text has no UTF-8. -/
theorem writeFile_comesTo (path text : Text) :
    ComesTo Fault.IsForeseen (fun _ => True) (writeFile path text) desk := by
  have files {α : Type} (result : Except FileFault α) :
      FailsWithin Fault.IsForeseen (result.mapError .file) := .mapError Fault.file_isForeseen
  have encodes : FailsWithin Fault.IsForeseen (text.encode.mapError .encoding) :=
    .mapError fun _ => rfl
  refine .andThen rfl fun _ => (ComesTo.ofExcept (files _)).bind fun emptied _ _ => ?_
  refine .andThen rfl fun _ => (ComesTo.ofExcept encodes).bind fun content _ _ => ?_
  exact (ComesTo.ofExcept (files _)).bind fun _ _ _ => .of_ok rfl trivial

variable {collation : Collation}

/-- A conversion works its text out and stores it, unless a fault that can be foreseen keeps it from
either, or its input is not read. -/
theorem convert_comesTo {conversion : Conversion}
    (orders : FailsWithin Fault.IsForeseen
      ((conversion.options.order collation).mapError .options)) :
    ComesTo (IsForeseenOrUnread conversion.input conversion.inputFormat desk.volume)
      (fun _ => True) (convert collation conversion) desk := by
  have renders : ComesTo
      (IsForeseenOrUnread conversion.input conversion.inputFormat desk.volume) (fun _ => True)
      (render collation conversion) desk := by
    refine (load_comesTo _ _).bind fun schema _ intact => ?_
    refine ComesTo.allow ?_ fun _ => .inl
    refine (sort_comesTo orders intact).bind fun sorted _ _ => ?_
    exact (ComesTo.ofExcept (sorted.write_failsWithin _)).imp fun _ _ => trivial
  cases hasOutput : (conversion.output.getD []).isEmpty with
  | true =>
      rw [convert_of_noOutput hasOutput]
      exact renders
  | false =>
      rw [convert_of_output hasOutput]
      refine renders.bind fun text _ _ => ?_
      refine ComesTo.allow ?_ fun _ => .inl
      have makes {path : Text} {between : Desk} :
          ComesTo Fault.IsForeseen (fun _ => True) (makeDirectories path) between := by
        refine (makeDirectories_comesTo path).allow ?_
        rintro _ ⟨refused, rfl⟩
        exact Fault.file_isForeseen refused
      have stores {between : Desk} : ComesTo Fault.IsForeseen (fun _ => True)
          (store (conversion.output.getD []) text) between :=
        makes.bind fun _ _ _ => (writeFile_comesTo _ _).bind fun _ _ _ => .of_ok rfl trivial
      exact stores.bind fun _ _ _ => .pure trivial

/-- A batch in a format that there is fails only where the file system refuses its directories. -/
theorem convertAll_comesTo {batch : Batch}
    (known : batch.outputFormat ∈ outputFormats.map Prod.fst) :
    ComesTo IsFileFault (fun _ => True) (convertAll collation batch) desk := by
  refine (makeDirectories_comesTo _).bind fun _ between _ => ?_
  cases isFormat : Named.find? Prod.fst batch.outputFormat outputFormats with
  | none =>
      obtain ⟨format, mem, isName⟩ := List.mem_map.mp known
      exact absurd isName (by simpa using List.find?_eq_none.mp isFormat format mem)
  | some format =>
      refine .andThen rfl fun listing => ?_
      refine (ComesTo.ofExcept (.mapError fun refused => ⟨refused, rfl⟩)).bind fun names _ _ => ?_
      obtain ⟨reports, _, folded, -⟩ := foldlM_convertEntry collation batch format.2
        (Text.sorted (names.filter isInputName)) ⟨0, 0⟩ ‹Desk›
      exact .of_ok (congrArg Prod.fst folded) trivial

end Task

namespace Arguments

variable {arguments : Arguments}

/-- The settings of comparison that arguments ask for have texts for names. -/
theorem exists_ofGiven {options : CompareOptions}
    (isOptions : arguments.compareOptions = some options) :
    ∃ given, options.settings = CompareOptions.ofGiven given := by
  unfold compareOptions at isOptions
  extract_lets word switch settings locales at isOptions
  split at isOptions
  · cases isOptions
  · cases isOptions
    have words (name : Text) (value : Option Text) :
        ∀ setting ∈ word name value, ∃ name, setting.1 = .text name :=
      List.forall_mem_map.mpr fun _ _ => ⟨name, rfl⟩
    have switches (name : Text) (value : Bool) :
        ∀ setting ∈ switch name value, ∃ name, setting.1 = .text name := by
      cases value with
      | true => exact List.forall_mem_singleton.mpr ⟨name, rfl⟩
      | false => exact List.forall_mem_nil _
    exact CompareOptions.exists_ofGiven (List.forall_mem_append.mpr ⟨List.forall_mem_append.mpr
      ⟨List.forall_mem_append.mpr ⟨words _ _, switches _ _⟩, words _ _⟩, switches _ _⟩)

/-- They are refused as options of comparison, if they are refused. -/
theorem order_failsWithin (collation : Collation) (arguments : Arguments) :
    FailsWithin Fault.IsForeseen
      (((ComparisonOptions.known arguments.compareOptions).order collation).mapError .options) := by
  cases isOptions : arguments.compareOptions with
  | none => exact .ok _
  | some options =>
      obtain ⟨locales, settings⟩ := options
      obtain ⟨given, rfl⟩ := exists_ofGiven isOptions
      have settles := (Collator.ofOptions_failsWithin : FailsWithin _
        (Collator.ofOptions ⟨locales, CompareOptions.ofGiven given⟩))
      refine FailsWithin.mapError_of (settles.bind fun _ => .ok _) ?_
      intro fault isCollation
      exact congrArg FailureKind.isForeseen isCollation

/-- The batch that arguments ask for, if they name both directories. -/
def batch? (arguments : Arguments) : Option Task.Batch :=
  let input := arguments.inputDirectory.getD []
  let output := arguments.outputDirectory.getD []
  if !input.isEmpty && !output.isEmpty then
    some ⟨input, output, arguments.outputFormat, .known arguments.compareOptions⟩
  else none

end Arguments

namespace Program

open SchemaOrder.Task (ComesTo IsFileFault IsForeseenOrUnread Report Converts)

variable {collation : Collation} {arguments : Arguments} {desk : Desk} {volume : Volume}

/-- The last lines of a batch. -/
def countLines (tally : Task.Tally) : Text :=
  "\nSorted " ++ Text.ofNat tally.succeeded ++ " files, " ++ Text.ofNat tally.failed ++ " failed\n"

/-- Where both directories are named, their files are converted and counted. -/
theorem runArguments_of_batch {batch : Task.Batch} (isBatch : arguments.batch? = some batch) :
    runArguments collation arguments = (do
      let tally ← Task.convertAll collation batch
      Task.print (countLines tally)
      pure (if tally.failed = 0 then 0 else 1)) := by
  unfold Arguments.batch? at isBatch
  extract_lets input output at isBatch
  split at isBatch
  · next both =>
      cases isBatch
      unfold runArguments
      exact if_pos both
  · cases isBatch

/-- Otherwise there is one file, or the help is printed. -/
theorem runArguments_of_single (single : arguments.batch? = none) :
    runArguments collation arguments =
      if (arguments.input.getD []).isEmpty then do
        Task.print Usage.help
        pure 1
      else runFile collation arguments (arguments.input.getD []) := by
  unfold Arguments.batch? at single
  extract_lets input output at single
  split at single
  · cases single
  · next notBoth =>
      unfold runArguments
      exact if_neg notBoth

/-- The work on one file comes to the status 0 or 1, unless a fault that can be foreseen keeps it
from that, or the file is not read. -/
theorem runFile_comesTo (input : Text) :
    ComesTo (IsForeseenOrUnread input arguments.inputFormat desk.volume)
      (fun status => status = 0 ∨ status = 1) (runFile collation arguments input) desk := by
  have orders := arguments.order_failsWithin collation
  unfold runFile
  dsimp only
  split
  · refine (Task.load_comesTo _ _).bind fun schema between intact => ?_
    refine ((Task.isSorted_comesTo orders).allow fun _ => .inl).bind
      fun isSorted after _ => ?_
    split
    · exact .andThen rfl fun _ => .pure (.inl rfl)
    · exact .andThen rfl fun _ => .pure (.inr rfl)
  · split
    · refine (Task.load_comesTo _ _).bind fun schema between intact => ?_
      refine ((Task.fingerprint_comesTo orders intact).allow fun _ => .inl).bind
        fun _ _ _ => ?_
      exact .andThen rfl fun _ => .pure (.inl rfl)
    · refine ComesTo.bind (Task.convert_comesTo orders :
        ComesTo _ _ (Task.convert collation ⟨input, _, _, arguments.inputFormat, _⟩) desk)
        fun result between _ => ?_
      split
      · exact .andThen rfl fun _ => .pure (.inl rfl)
      · exact .pure (.inl rfl)

/-- So does what the program does without a batch, with the status 1 where no input is named. -/
theorem runArguments_comesTo (single : arguments.batch? = none) :
    ComesTo (IsForeseenOrUnread (arguments.input.getD []) arguments.inputFormat desk.volume)
      (fun status => status = 0 ∨ status = 1) (runArguments collation arguments) desk := by
  rw [runArguments_of_single single]
  split
  · exact .andThen rfl fun _ => .pure (.inr rfl)
  · exact runFile_comesTo _

/-- The ways in which the program ends on a volume and arguments. -/
inductive Ends (collation : Collation) (volume : Volume) (texts : List Text) : Ending → Prop
  /-- The arguments are refused, or the help is asked for. -/
  | stopped {reason : Arguments.Stop} (stops : Arguments.read texts = .error reason) :
      Ends collation volume texts (stop volume reason)
  /-- The work on a single file was done. -/
  | answered {arguments : Arguments} {status : Nat} {desk : Desk}
      (reads : Arguments.read texts = .ok arguments) (single : arguments.batch? = none)
      (ran : runArguments collation arguments ⟨volume, [], []⟩ = (.ok status, desk))
      (isStatus : status = 0 ∨ status = 1) :
      Ends collation volume texts
        ⟨.ok status, desk.output, showLog arguments.logLevel desk.log, desk.volume⟩
  /-- The files of a directory were converted, each of them with a line about it. -/
  | converted {arguments : Arguments} {batch : Task.Batch} {extension : Text}
      {made after : Volume} {listed : List Text} {reports : List Report} {log : List LogEntry}
      (reads : Arguments.read texts = .ok arguments) (isBatch : arguments.batch? = some batch)
      (isMade : volume.makeDirectories batch.output = (made, .ok ()))
      (known : (batch.outputFormat, extension) ∈ outputFormats)
      (isListed : made.list batch.input = .ok listed)
      (names : reports.map Report.name = Text.sorted (listed.filter Task.isInputName))
      (converts : Converts collation batch extension made reports after) :
      Ends collation volume texts
        ⟨.ok (if reports.countP (!·.outcome.isOk) = 0 then 0 else 1),
          reports.flatMap (Report.line extension) ++ countLines
            ⟨reports.countP (·.outcome.isOk), reports.countP (!·.outcome.isOk)⟩,
          showLog arguments.logLevel log, after⟩
  /-- The work failed, and the last line says why. In a batch only a directory can be the reason. -/
  | failed {arguments : Arguments} {fault : Fault} {desk : Desk}
      (reads : Arguments.read texts = .ok arguments)
      (ran : runArguments collation arguments ⟨volume, [], []⟩ = (.error fault, desk))
      (inBatch : arguments.batch? ≠ none → IsFileFault fault) :
      Ends collation volume texts
        ⟨.ok 1, desk.output,
          showLog arguments.logLevel desk.log ++ "error: " ++ fault.report ++ "\n", desk.volume⟩
  /-- A single description in JSON lacks what it was asked for, which nobody foresaw. -/
  | escaped {arguments : Arguments} {access : Json.AccessFault} {desk : Desk}
      (reads : Arguments.read texts = .ok arguments) (single : arguments.batch? = none)
      (isRead : (Source.namedFormat (arguments.input.getD []) arguments.inputFormat).read volume =
        .error (.schema (.introspection (.access access))))
      (unforeseen : access.kind.isForeseen = false) :
      Ends collation volume texts
        ⟨.error (.schema (.introspection (.access access))), desk.output,
          showLog arguments.logLevel desk.log, desk.volume⟩

/-- Work that is done ends with its status. -/
theorem runTask_of_ok {level : LogLevel} {task : Task Nat} {status : Nat}
    (ran : task ⟨volume, [], []⟩ = (.ok status, desk)) :
    runTask volume level task =
      ⟨.ok status, desk.output, showLog level desk.log, desk.volume⟩ := by
  rw [runTask, ran]

/-- Work that fails ends with the status 1 and a line, or the fault is left to the caller. -/
theorem runTask_of_error {level : LogLevel} {task : Task Nat} {fault : Fault}
    (ran : task ⟨volume, [], []⟩ = (.error fault, desk)) :
    runTask volume level task =
      if fault.kind.isForeseen then
        ⟨.ok 1, desk.output, showLog level desk.log ++ "error: " ++ fault.report ++ "\n",
          desk.volume⟩
      else ⟨.error fault, desk.output, showLog level desk.log, desk.volume⟩ := by
  rw [runTask, ran]

/-- The work on directories ends with a line about each file, or a directory is the reason that it
does not. -/
theorem run_ends_of_batch {texts : List Text} {batch : Task.Batch}
    (reads : Arguments.read texts = .ok arguments) (isBatch : arguments.batch? = some batch) :
    Ends collation volume texts
      (runTask volume arguments.logLevel (runArguments collation arguments)) := by
  have known : batch.outputFormat ∈ outputFormats.map Prod.fst := by
    unfold Arguments.batch? at isBatch
    extract_lets input output at isBatch
    split at isBatch <;> cases isBatch
    exact Arguments.outputFormat_of_read reads
  obtain ⟨fails, -⟩ := (Task.convertAll_comesTo known :
    ComesTo _ _ (Task.convertAll collation batch) ⟨volume, [], []⟩)
  have unfolded := Task.bind_apply (Task.convertAll collation batch) (fun tally => do
    Task.print (countLines tally)
    pure (if tally.failed = 0 then 0 else 1)) ⟨volume, [], []⟩
  rw [← runArguments_of_batch isBatch] at unfolded
  rcases ran : Task.convertAll collation batch ⟨volume, [], []⟩ with ⟨fault | tally, desk⟩
  · rw [ran] at fails unfolded
    obtain ⟨refused, rfl⟩ := fails fault rfl
    have foreseen : (Fault.file refused).kind.isForeseen = true := Fault.file_isForeseen refused
    rw [runTask_of_error unfolded, if_pos foreseen]
    exact .failed reads unfolded fun _ => ⟨refused, rfl⟩
  · rw [ran] at unfolded
    obtain ⟨made, extension, listed, reports, isMade, isFormat, isListed, names, converts, output,
      rfl⟩ := Task.convertAll_eq_ok ran
    have printed : desk.output = reports.flatMap (Report.line extension) := output
    rw [runTask_of_ok unfolded]
    dsimp only [Task.print]
    rw [printed]
    exact .converted reads isBatch isMade isFormat isListed names converts

/-- Whatever the arguments and the files are, the program ends in one of these ways. -/
theorem run_ends (collation : Collation) (volume : Volume) (texts : List Text) :
    Ends collation volume texts (run volume collation texts) := by
  cases reads : Arguments.read texts with
  | error reason =>
      rw [run, reads]
      exact .stopped reads
  | ok arguments =>
      rw [run, reads]
      dsimp only
      cases isBatch : arguments.batch? with
      | some batch => exact run_ends_of_batch reads isBatch
      | none =>
          obtain ⟨fails, gives⟩ := (runArguments_comesTo isBatch :
            ComesTo _ _ (runArguments collation arguments) ⟨volume, [], []⟩)
          rcases ran : runArguments collation arguments ⟨volume, [], []⟩ with ⟨fault | status, desk⟩
          · rw [ran] at fails
            rw [runTask_of_error ran]
            split
            · exact .failed reads ran fun isSome => absurd isBatch isSome
            · next unforeseen =>
                rcases fails fault rfl with foreseen | isRead
                · exact absurd foreseen unforeseen
                · rcases Source.read_failsWithin _ _ _ fault isRead with foreseen | ⟨access, rfl⟩
                  · exact absurd foreseen unforeseen
                  · exact .escaped reads isBatch isRead (eq_false_of_ne_true unforeseen)
          · rw [ran] at gives
            rw [runTask_of_ok ran]
            exact .answered reads isBatch ran (gives status rfl)

/-- A volume with a file that holds the description of a schema without types. -/
def typelessVolume : Volume :=
  ⟨[], [([Text.ofString "s.json"], .file (Text.encodeLoosely "\x7b\"__schema\": \x7b\x7d\x7d"))]⟩

/-- Reading it is a failure that nobody foresaw, so that the program has no status to end with. -/
theorem run_typelessVolume :
    ((run typelessVolume AsciiCollation.key ["--input", "s.json"]).status.mapError
      fun fault => (fault.kind, fault.message)) =
        .error (.missingMember, Text.ofString "'types'") := by
  decide +kernel

end Program

end SchemaOrder
