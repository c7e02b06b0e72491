/-!
# Kinds of failures

This module holds the kinds of failures that a caller can tell apart. What failed in
particular is said by the faults of the single modules, each of which has its kind.
-/

namespace SchemaOrder

/-- The kinds of failures. -/
inductive FailureKind where
  /-- Options of comparison that no collator can be made of. -/
  | collation
  /-- A source that holds no schema. -/
  | source
  /-- A reference to a type that the schema does not have. -/
  | unknownType
  /-- An entry of the schema that is a type of no kind. -/
  | unexpectedKind
  /-- A document that is malformed. -/
  | document
  /-- A definition that the schema language forbids. -/
  | language
  /-- A value or a definition of the wrong kind. -/
  | mismatch
  /-- A value of the right kind that is not admitted. -/
  | value
  /-- A text that is not JSON. -/
  | json
  /-- Bytes that are not UTF-8. -/
  | decoding
  /-- A text that has no UTF-8. -/
  | encoding
  /-- A file that does not exist. -/
  | fileNotFound
  /-- A directory in the place of a file. -/
  | isDirectory
  /-- A file in the place of a directory. -/
  | notDirectory
  /-- A file in the place of a directory that is to be made. -/
  | fileExists
  /-- Another refusal of the file system. -/
  | fileSystem
  /-- Something asked of a value that values of its kind do not have. -/
  | missingAttribute
  /-- A member that an object does not have. -/
  | missingMember
  /-- A definition that has no end. -/
  | endless
deriving DecidableEq, Repr

/-- Whether a failure is one that can be foreseen from any input; the others show that
something was taken for granted that the input does not hold. -/
def FailureKind.isForeseen : FailureKind → Bool
  | .missingAttribute | .missingMember | .endless => false
  | _ => true

end SchemaOrder
