import SchemaOrder.Command.Arguments
import SchemaOrder.Command.Conversion
import SchemaOrder.Command.Usage

/-!
# The program

This module holds what the program does with its arguments: it converts a file or a
directory, checks whether a file is sorted, or prints its fingerprint. A failure that can
be foreseen from the input ends the program with a line about it; any other is left to
the caller.
-/

namespace SchemaOrder

/-- How the program ends. -/
structure Ending where
  /-- The status, or a failure that nobody foresaw. -/
  status : Except Fault Nat
  output : Text
  errors : Text
  volume : Volume
deriving Repr

namespace Arguments

/-- The least level that the log shows. -/
def logLevel (arguments : Arguments) : LogLevel :=
  if arguments.isVerbose then .debug
  else if arguments.isQuiet then .warning
  else .information

end Arguments

namespace Program

/-- The work on the files of a directory. -/
def runBatch (collation : Collation) (arguments : Arguments) (input output : Text) :
    Task Nat := do
  let tally ← Task.convertAll collation
    ⟨input, output, arguments.outputFormat, .known arguments.compareOptions⟩
  Task.print ("\nSorted " ++ Text.ofNat tally.succeeded ++ " files, " ++
    Text.ofNat tally.failed ++ " failed\n")
  pure (if tally.failed = 0 then 0 else 1)

/-- The work on one file. -/
def runFile (collation : Collation) (arguments : Arguments) (input : Text) : Task Nat := do
  let options : ComparisonOptions := .known arguments.compareOptions
  if arguments.isCheck then
    let schema ← Task.load input arguments.inputFormat
    if ← Task.isSorted collation options schema then
      Task.note .information .program (input ++ " is sorted")
      pure 0
    else
      Task.note .warning .program (input ++ " is not sorted")
      pure 1
  else if arguments.isFingerprint then
    let schema ← Task.load input arguments.inputFormat
    Task.print ((← Task.fingerprint collation options schema) ++ "\n")
    pure 0
  else
    let result ← Task.convert collation
      ⟨input, arguments.output, arguments.outputFormat, arguments.inputFormat, options⟩
    if (arguments.output.getD []).isEmpty then Task.print result
    pure 0

/-- The work that arguments ask for. -/
def runArguments (collation : Collation) (arguments : Arguments) : Task Nat := do
  let inputDirectory := arguments.inputDirectory.getD []
  let outputDirectory := arguments.outputDirectory.getD []
  let input := arguments.input.getD []
  if !inputDirectory.isEmpty && !outputDirectory.isEmpty then
    runBatch collation arguments inputDirectory outputDirectory
  else if input.isEmpty then do
    Task.print Usage.help
    pure 1
  else runFile collation arguments input

/-- The lines of a log from a level on. -/
def showLog (least : LogLevel) (log : List LogEntry) : Text :=
  (log.filter fun entry => least.rank ≤ entry.level.rank).flatMap LogEntry.line

/-- How the program ends on arguments that were read. -/
def runTask (volume : Volume) (level : LogLevel) (task : Task Nat) : Ending :=
  let (result, desk) := task ⟨volume, [], []⟩
  let log := showLog level desk.log
  match result with
  | .ok status => ⟨.ok status, desk.output, log, desk.volume⟩
  | .error fault =>
    if fault.kind.isForeseen then
      ⟨.ok 1, desk.output, log ++ "error: " ++ fault.report ++ "\n", desk.volume⟩
    else ⟨.error fault, desk.output, log, desk.volume⟩

/-- The status of a program whose arguments are refused. -/
def usageStatus : Nat := 2

/-- How the program ends where there are no arguments to go on with. -/
def stop (volume : Volume) : Arguments.Stop → Ending
  | .help => ⟨.ok 0, Usage.help, [], volume⟩
  | .refused refusal =>
    ⟨.ok usageStatus, [],
      Usage.summary ++ Usage.programName ++ ": error: " ++ refusal.message ++ "\n", volume⟩

/-- Runs the program. -/
def run (volume : Volume) (collation : Collation) (arguments : List Text) : Ending :=
  match Arguments.read arguments with
  | .error reason => stop volume reason
  | .ok arguments =>
    runTask volume arguments.logLevel (runArguments collation arguments)

end Program

end SchemaOrder
