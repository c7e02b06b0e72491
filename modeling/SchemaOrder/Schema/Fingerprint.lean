import SchemaOrder.Digest.Sha256
import SchemaOrder.Fault

/-!
# Fingerprints of schemas

This module holds the fingerprint of a schema: the digest of the document that its
sorted copy is written as. Schemas that differ in the order of declarations only have
the same fingerprint.
-/

namespace SchemaOrder.Schema

/-- The sorted copy of a schema, with the faults of a whole run. -/
def sorted (order : NameOrder) (schema : Schema) : Except Fault Schema :=
  (schema.sort order).mapError .sort

/-- The digest of the document that a schema is written as, in its own order. -/
def digest (schema : Schema) : Except Fault Text := do
  let text ← schema.print.mapError .print
  let bytes ← text.encode.mapError .encoding
  pure (Sha256.hexDigest bytes)

/-- The fingerprint of a schema: the digest of its sorted copy. -/
def fingerprint (order : NameOrder) (schema : Schema) : Except Fault Text := do
  (← schema.sorted order).digest

end SchemaOrder.Schema
