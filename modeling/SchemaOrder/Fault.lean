import SchemaOrder.Json.Reader
import SchemaOrder.Order.Options
import SchemaOrder.Order.Sort
import SchemaOrder.Schema.Fault
import SchemaOrder.Schema.Introspection
import SchemaOrder.Schema.Printer
import SchemaOrder.Storage.Volume

/-!
# Faults

This module holds everything that can go wrong between a source and an answer, as one
type: the faults of the single modules, and what is refused where they are put together.
Every fault has a kind and its words.
-/

namespace SchemaOrder

/-- Why there is no answer. -/
inductive Fault where
  /-- Options of comparison that are refused. -/
  | options (fault : OptionFault)
  /-- Options of comparison where none are given. -/
  | noOptions
  | file (fault : FileFault)
  /-- The content of a file that is no text. -/
  | decoding (fault : Text.DecodingFault)
  /-- A text that cannot be written. -/
  | encoding (fault : Text.EncodingFault)
  /-- A document that cannot be read, and its text. -/
  | document (fault : Document.ReadFault) (source : Text)
  /-- A text that is not JSON, and the text. -/
  | json (fault : Json.ReadFault) (source : Text)
  /-- JSON that is no introspection result. -/
  | noIntrospection
  | schema (fault : SchemaFault)
  | sort (fault : SortFault)
  | print (fault : Schema.PrintFault)
  | description (fault : Schema.DescriptionFault)
  /-- A name of no format for input. -/
  | inputFormat (name : Text)
  /-- A name of no format for output. -/
  | outputFormat (name : Text)
  /-- A name of no format, where the extension of the format is asked for. -/
  | noExtension (name : Text)
  /-- A type that the index does not have. -/
  | noEntry (name : Text)
  /-- A refusal of null around a refusal of null. -/
  | nonNullTwice (type : TypeReference)
deriving Repr

namespace Fault

/-- The kind of failure that a fault is. -/
def kind : Fault → FailureKind
  | .options fault => fault.kind
  | .noOptions => .missingAttribute
  | .file fault => fault.kind
  | .decoding _ => .decoding
  | .encoding _ => .encoding
  | .document .. => .document
  | .json (.malformed ..) _ => .json
  | .json (.integerTooLong _) _ => .value
  | .noIntrospection => .source
  | .schema fault => fault.kind
  | .sort fault => fault.kind
  | .print fault => fault.kind
  | .description fault => fault.kind
  | .inputFormat _ => .value
  | .outputFormat _ => .value
  | .noExtension _ => .missingMember
  | .noEntry _ => .missingMember
  | .nonNullTwice _ => .mismatch

/-- The words for a fault. -/
def message : Fault → Text
  | .options fault => fault.message
  | .noOptions => "'NoneType' object has no attribute 'options'"
  | .file fault => fault.message
  | .decoding fault => fault.message
  | .encoding fault => fault.message
  | .document fault source => SchemaFault.malformedDocument fault source
  | .json fault source => fault.message source
  | .noIntrospection => "Introspection result has no '__schema' entry"
  | .schema fault => fault.message
  | .sort fault => fault.message
  | .print fault => fault.message
  | .description fault => fault.message
  | .inputFormat name => "Unknown input format: " ++ name.quoted
  | .outputFormat name => "Unknown output format: " ++ name.quoted
  | .noExtension name => name.quoted
  | .noEntry name => name.quoted
  | .nonNullTwice type =>
    "Can only create NonNull of a Nullable GraphQLType but got: " ++ type.text ++ "."

/-- The words for a fault as a program reports it, with the excerpt of the document or the
request that it was found at. -/
def report : Fault → Text
  | .schema fault => fault.description
  | .description fault => SchemaFault.withExcerpt fault.message fault.excerpt
  | other => other.message

end Fault

end SchemaOrder
