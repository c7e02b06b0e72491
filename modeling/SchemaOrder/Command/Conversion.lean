import SchemaOrder.Command.Task
import SchemaOrder.Order.Check
import SchemaOrder.Order.Collator
import SchemaOrder.Schema.Fingerprint
import SchemaOrder.Storage.Source

/-!
# Conversions

This module holds the work of the program on files: a schema is read, sorted and written
in one of two formats, or all schemas of a directory are. A conversion that fails writes
no result. In a directory a failure is reported and the next file is converted.
-/

namespace SchemaOrder

/-- Options of comparison as a program has them: worked out, or still a JSON value. -/
inductive ComparisonOptions where
  | known (options : Option CompareOptions)
  | json (value : Json)

/-- The options of comparison, worked out. -/
def ComparisonOptions.resolve : ComparisonOptions → Except OptionFault (Option CompareOptions)
  | .known options => .ok options
  | .json value => CompareOptions.ofJson value

namespace CollatorSettings

/-- How a log shows a flag. -/
def flagWord (value : Bool) : Text :=
  if value then "True" else "False"

/-- The settings as a log shows them. -/
def summary (settings : CollatorSettings) : Text :=
  let caseFirst : Text := match settings.caseFirst with
    | .upper => "upper"
    | .lower => "lower"
    | .off => "false"
  "locale=" ++ settings.locale.getD "root" ++ ", sensitivity=" ++ settings.sensitivity ++
    ", numeric=" ++ flagWord settings.numeric ++ ", caseFirst=" ++ caseFirst ++
    ", ignorePunctuation=" ++ flagWord settings.ignorePunctuation

end CollatorSettings

namespace Task

/-- Works out the order of names that options ask for. -/
def nameOrder (collation : Collation) (options : ComparisonOptions) : Task NameOrder := do
  match ← ofExcept (options.resolve.mapError .options) with
  | none => do
    note .debug .comparison "Ordering names by code point"
    pure .byCodePoint
  | some options => do
    let settings ← ofExcept ((Collator.ofOptions options).mapError .options)
    note .debug .comparison
      ("Ordering names by ICU collation (" ++ settings.summary ++ ")")
    pure (.collated (collation settings))

/-- Reads the schema that a file holds. -/
def load (path : Text) (format : Option Text) : Task Schema := do
  let name := format.getD []
  let known : Text := if name.isEmpty then (Format.ofPath path).name else name
  note .debug .program ("Loading " ++ path ++ " as " ++ known)
  ofExcept ((Source.namedFormat path format).read (← volume))

/-- Sorts a schema. -/
def sort (collation : Collation) (options : ComparisonOptions) (schema : Schema) :
    Task Schema := do
  let order ← nameOrder collation options
  let sorted ← ofExcept (schema.sorted order)
  note .debug .sorting
    ("Sorted " ++ Text.ofNat sorted.index.length ++ " types and " ++
      Text.ofNat sorted.directives.length ++ " directives")
  pure sorted

/-- Asks whether a schema is sorted. -/
def isSorted (collation : Collation) (options : ComparisonOptions) (schema : Schema) :
    Task Bool := do
  let order ← nameOrder collation options
  match schema.firstUnordered? order with
  | none => pure true
  | some collection => do
    note .debug .checking ("Out of order: " ++ collection.label)
    pure false

/-- The fingerprint of a schema. -/
def fingerprint (collation : Collation) (options : ComparisonOptions) (schema : Schema) :
    Task Text := do
  ofExcept (← sort collation options schema).digest

end Task

/-- The formats that schemas are written in, by name, with the extensions of their files. -/
def outputFormats : List (Text × Text) :=
  [("sdl", ".graphql"), ("json", ".json")]

/-- A schema in the format with a name. -/
def Schema.write (format : Text) (schema : Schema) : Except Fault Text :=
  if format = "sdl" then schema.toDocument.mapError .print
  else if format = "json" then schema.toIntrospection.mapError .description
  else .error (.outputFormat format)

/-- What is to be converted, and how. -/
structure Conversion where
  input : Text
  /-- The file for the result; without one, or with an empty path, nothing is written. -/
  output : Option Text
  outputFormat : Text
  inputFormat : Option Text
  options : ComparisonOptions

namespace Task

/-- Writes a text to a file. The file is made, or emptied, before the text is encoded. -/
def writeFile (path text : Text) : Task Unit := do
  let emptied ← ofExcept (((← volume).write path []).mapError .file)
  setVolume emptied
  let content ← ofExcept (text.encode.mapError .encoding)
  setVolume (← ofExcept ((emptied.write path content).mapError .file))

/-- Makes a directory and all that lead to it. -/
def makeDirectories (path : Text) : Task Unit := do
  let (made, result) := (← volume).makeDirectories path
  setVolume made
  ofExcept (result.mapError .file)

/-- Converts a file. -/
def convert (collation : Collation) (conversion : Conversion) : Task Text := do
  let schema ← load conversion.input conversion.inputFormat
  let sorted ← sort collation conversion.options schema
  let result ← ofExcept (sorted.write conversion.outputFormat)
  let output := conversion.output.getD []
  if !output.isEmpty then
    let directory := Path.directory output
    makeDirectories (if directory.isEmpty then "." else directory)
    writeFile output result
    note .debug .program ("Wrote " ++ output)
  pure result

/-- The ends of the names of files that hold schemas. -/
def inputExtensions : List Text :=
  [".graphql", ".graphqls", ".gql", ".json"]

/-- Whether a name is that of a file that holds a schema. -/
def isInputName (name : Text) : Bool :=
  inputExtensions.any fun extension => name.lower.endsWith extension

/-- How many files of a directory were converted, and how many could not be. -/
structure Tally where
  succeeded : Nat
  failed : Nat
deriving DecidableEq, Repr

/-- A directory whose files are to be converted. -/
structure Batch where
  input : Text
  output : Text
  outputFormat : Text
  options : ComparisonOptions

/-- The name of the file for the result of a file with a name. -/
def outputName (extension name : Text) : Text :=
  Path.dropExtension name ++ extension

/-- Converts one file of a directory and reports it. -/
def convertEntry (collation : Collation) (batch : Batch) (extension : Text) (tally : Tally)
    (name : Text) : Task Tally := do
  let input := Path.join batch.input name
  let result := outputName extension name
  match ← attempt (convert collation
      ⟨input, some (Path.join batch.output result), batch.outputFormat, none,
        batch.options⟩) with
  | .ok _ => do
    print ("  OK  " ++ name ++ " -> " ++ result ++ "\n")
    pure { tally with succeeded := tally.succeeded + 1 }
  | .error fault => do
    print ("  FAIL " ++ name ++ ": " ++ fault.report ++ "\n")
    note .debug .program ("Failed to sort " ++ input)
    pure { tally with failed := tally.failed + 1 }

/-- Converts all files of a directory that hold schemas, in the order of their names. -/
def convertAll (collation : Collation) (batch : Batch) : Task Tally := do
  makeDirectories batch.output
  match Named.find? Prod.fst batch.outputFormat outputFormats with
  | none => throw (.noExtension batch.outputFormat)
  | some (_, extension) => do
    let names ← ofExcept (((← volume).list batch.input).mapError .file)
    (Text.sorted (names.filter isInputName)).foldlM (convertEntry collation batch extension)
      ⟨0, 0⟩

end Task

end SchemaOrder
