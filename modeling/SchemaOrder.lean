import SchemaOrder.Command.Arguments
import SchemaOrder.Command.Conversion
import SchemaOrder.Command.Program
import SchemaOrder.Command.Task
import SchemaOrder.Command.Usage
import SchemaOrder.Digest.Sha256
import SchemaOrder.Document.Basic
import SchemaOrder.Document.Block
import SchemaOrder.Document.Excerpt
import SchemaOrder.Document.Lexer
import SchemaOrder.Document.Parser
import SchemaOrder.Document.Printer
import SchemaOrder.Document.Rules
import SchemaOrder.Document.Token
import SchemaOrder.Failure
import SchemaOrder.Fault
import SchemaOrder.Json.Access
import SchemaOrder.Json.Display
import SchemaOrder.Json.Equality
import SchemaOrder.Json.Reader
import SchemaOrder.Json.Value
import SchemaOrder.Json.Writer
import SchemaOrder.Main
import SchemaOrder.Named
import SchemaOrder.Number.Binary64
import SchemaOrder.Number.Shortest
import SchemaOrder.Order.AsciiCollation
import SchemaOrder.Order.Check
import SchemaOrder.Order.Collator
import SchemaOrder.Order.NameOrder
import SchemaOrder.Order.Options
import SchemaOrder.Order.Sort
import SchemaOrder.Proofs.Collections
import SchemaOrder.Proofs.Command.Batches
import SchemaOrder.Proofs.Command.Endings
import SchemaOrder.Proofs.Command.IsolatedEntries
import SchemaOrder.Proofs.Command.ReadArguments
import SchemaOrder.Proofs.Command.RepeatedConversions
import SchemaOrder.Proofs.Command.StoredResults
import SchemaOrder.Proofs.Command.Tasks
import SchemaOrder.Proofs.Document.Applications
import SchemaOrder.Proofs.Document.BlockQuotation
import SchemaOrder.Proofs.Document.Cutting
import SchemaOrder.Proofs.Document.DefinitionParts
import SchemaOrder.Proofs.Document.Inspections
import SchemaOrder.Proofs.Document.LineEnds
import SchemaOrder.Proofs.Document.Lines
import SchemaOrder.Proofs.Document.Literals
import SchemaOrder.Proofs.Document.Numbers
import SchemaOrder.Proofs.Document.Pieces
import SchemaOrder.Proofs.Document.Quotation
import SchemaOrder.Proofs.Document.Reading
import SchemaOrder.Proofs.Document.RereadDocument
import SchemaOrder.Proofs.Document.Spelling
import SchemaOrder.Proofs.Document.TypeDefinitions
import SchemaOrder.Proofs.Document.UnifiedTexts
import SchemaOrder.Proofs.Document.UnifiedTokens
import SchemaOrder.Proofs.Document.Unplaced
import SchemaOrder.Proofs.Document.UnplacedBreaches
import SchemaOrder.Proofs.Document.UnplacedReading
import SchemaOrder.Proofs.Document.WrittenDocument
import SchemaOrder.Proofs.Document.WrittenNumbers
import SchemaOrder.Proofs.Document.Yielding
import SchemaOrder.Proofs.Json.EqualValues
import SchemaOrder.Proofs.Json.Rereading
import SchemaOrder.Proofs.Json.UnifiedLiterals
import SchemaOrder.Proofs.Json.UnifiedReading
import SchemaOrder.Proofs.Looking
import SchemaOrder.Proofs.Matching
import SchemaOrder.Proofs.Number.ExactPositions
import SchemaOrder.Proofs.Order.AcceptedOptions
import SchemaOrder.Proofs.Order.DistinctSettings
import SchemaOrder.Proofs.Order.EqualCollators
import SchemaOrder.Proofs.Order.EqualOptions
import SchemaOrder.Proofs.Order.PairedOrders
import SchemaOrder.Proofs.Order.RankedNames
import SchemaOrder.Proofs.Order.SortedArrangement
import SchemaOrder.Proofs.Order.StableSort
import SchemaOrder.Proofs.Outcome
import SchemaOrder.Proofs.Parallel
import SchemaOrder.Proofs.Schema.AgreeingDrafts
import SchemaOrder.Proofs.Schema.Agreement
import SchemaOrder.Proofs.Schema.Assembly
import SchemaOrder.Proofs.Schema.Closure
import SchemaOrder.Proofs.Schema.CoercedDefaults
import SchemaOrder.Proofs.Schema.CoercionLevels
import SchemaOrder.Proofs.Schema.Defaults
import SchemaOrder.Proofs.Schema.DefinedTypes
import SchemaOrder.Proofs.Schema.DescribedFaults
import SchemaOrder.Proofs.Schema.DescribedLegibility
import SchemaOrder.Proofs.Schema.DescribedReferences
import SchemaOrder.Proofs.Schema.DescribedTypes
import SchemaOrder.Proofs.Schema.Describing
import SchemaOrder.Proofs.Schema.DescriptionParts
import SchemaOrder.Proofs.Schema.DocumentReferences
import SchemaOrder.Proofs.Schema.Findings
import SchemaOrder.Proofs.Schema.FittingDefaults
import SchemaOrder.Proofs.Schema.FittingDescriptions
import SchemaOrder.Proofs.Schema.FittingValues
import SchemaOrder.Proofs.Schema.ForeseenFaults
import SchemaOrder.Proofs.Schema.InputCircles
import SchemaOrder.Proofs.Schema.Legibility
import SchemaOrder.Proofs.Schema.Links
import SchemaOrder.Proofs.Schema.ParallelDrafts
import SchemaOrder.Proofs.Schema.RearrangedDefaults
import SchemaOrder.Proofs.Schema.RearrangedDescriptions
import SchemaOrder.Proofs.Schema.RereadDefaults
import SchemaOrder.Proofs.Schema.Saturation
import SchemaOrder.Proofs.Schema.SpokenParts
import SchemaOrder.Proofs.Schema.UnplacedDefinitions
import SchemaOrder.Proofs.Schema.Validity
import SchemaOrder.Proofs.Schema.Webs
import SchemaOrder.Proofs.Schema.Writing
import SchemaOrder.Proofs.Schema.WrittenScalars
import SchemaOrder.Proofs.Sorting.Arranged
import SchemaOrder.Proofs.Sorting.CheckAgreement
import SchemaOrder.Proofs.Sorting.ConstructedCopy
import SchemaOrder.Proofs.Sorting.DeclarationOrder
import SchemaOrder.Proofs.Sorting.OrderedDescriptions
import SchemaOrder.Proofs.Sorting.PromisedParts
import SchemaOrder.Proofs.Sorting.Rearrangement
import SchemaOrder.Proofs.Sorting.Rejection
import SchemaOrder.Proofs.Sorting.RepeatedSorting
import SchemaOrder.Proofs.Sorting.SortedCopy
import SchemaOrder.Proofs.Sorting.SortedDescriptions
import SchemaOrder.Proofs.Sorting.SortedDraft
import SchemaOrder.Proofs.Sorting.SortedFitting
import SchemaOrder.Proofs.Sorting.SortedLegibility
import SchemaOrder.Proofs.Sorting.SortedValidity
import SchemaOrder.Proofs.Sorting.StagedCollecting
import SchemaOrder.Proofs.Sorting.StagedPasses
import SchemaOrder.Proofs.Sorting.StagedReading
import SchemaOrder.Proofs.Sorting.StagedRun
import SchemaOrder.Proofs.Sorting.Structure
import SchemaOrder.Proofs.Sorting.Untampered
import SchemaOrder.Proofs.Storing.CanonicalTexts
import SchemaOrder.Proofs.Storing.DescribedResemblance
import SchemaOrder.Proofs.Storing.DescribedSkeletons
import SchemaOrder.Proofs.Storing.DirectoryEntries
import SchemaOrder.Proofs.Storing.DocumentResemblance
import SchemaOrder.Proofs.Storing.DocumentSkeletons
import SchemaOrder.Proofs.Storing.ExistingDirectories
import SchemaOrder.Proofs.Storing.KeptFiles
import SchemaOrder.Proofs.Storing.Resemblance
import SchemaOrder.Proofs.Storing.SameSources
import SchemaOrder.Proofs.Storing.SharedDirectories
import SchemaOrder.Proofs.Storing.Skeletons
import SchemaOrder.Proofs.Storing.SortedResemblance
import SchemaOrder.Proofs.Storing.StoredVerdicts
import SchemaOrder.Proofs.Storing.WritableDefaults
import SchemaOrder.Proofs.Storing.WrittenFiles
import SchemaOrder.Schema.Basic
import SchemaOrder.Schema.Coercion
import SchemaOrder.Schema.Construction
import SchemaOrder.Schema.Default
import SchemaOrder.Schema.Draft
import SchemaOrder.Schema.Fault
import SchemaOrder.Schema.Fingerprint
import SchemaOrder.Schema.Introspection
import SchemaOrder.Schema.Link
import SchemaOrder.Schema.OfDocument
import SchemaOrder.Schema.OfIntrospection
import SchemaOrder.Schema.Printer
import SchemaOrder.Schema.Rules
import SchemaOrder.Schema.Standard
import SchemaOrder.Schema.Value
import SchemaOrder.Schema.Web
import SchemaOrder.Session
import SchemaOrder.Storage.Path
import SchemaOrder.Storage.Source
import SchemaOrder.Storage.Volume
import SchemaOrder.Text.Basic
import SchemaOrder.Text.CodePoint
import SchemaOrder.Text.Cursor
import SchemaOrder.Text.Printable
import SchemaOrder.Text.Quoted
import SchemaOrder.Text.Suggestion
import SchemaOrder.Text.Utf8
import SchemaOrder.TypeReference
