import SchemaOrder.Proofs.Sorting.DeclarationOrder
import SchemaOrder.Proofs.Sorting.RepeatedSorting
import SchemaOrder.Proofs.Sorting.SortedFitting
import SchemaOrder.Proofs.Storing.DescribedResemblance
import SchemaOrder.Proofs.Storing.DocumentResemblance
import SchemaOrder.Proofs.Storing.SortedResemblance
import SchemaOrder.Proofs.Storing.StoredVerdicts

/-!
# Canonical texts of stored schemas

The canonical text of a schema is the document of its sorted copy. A schema that is stored in either
format and read again resembles the schema that was stored, so that both have one canonical text
and one fingerprint by every comparison.
-/

namespace SchemaOrder.Schema

open Outcome

variable {schema sorted : Schema} {order : NameOrder}

/-- The sorted copy of an intact schema, sorted again by the same order, is as it was. -/
theorem Intact.sort_sorted_self (intact : schema.Intact) (sorts : schema.sort order = .ok sorted) :
    sorted.sort order = .ok sorted :=
  Schema.sort_sorted_self intact.closed intact.unique intact.describes sorts

/-- The document of a schema is what is printed of it, with an end of the last line. -/
theorem toDocument_of_print {text : Text} (printed : schema.print = .ok text) :
    schema.toDocument = .ok (text ++ Text.ofString "\n") := by
  rw [toDocument, printed]
  rfl

/-- The sorted copy of a schema that passes the check resembles the schema. -/
theorem Intact.sorted_resembles_of_isSorted (intact : schema.Intact)
    (inOrder : schema.isSorted order = true) (sorts : schema.sort order = .ok sorted) :
    schema.Resembles sorted := by
  rw [isSorted_iff_layoutInOrder order intact.closed.defined] at inOrder
  obtain ⟨sameTypes, sameDirectives⟩ := sort_eq_self_of_layoutInOrder intact.unique sorts inOrder
  refine ⟨(writeSchema_of_sort intact sorts).symm, ?_, ?_⟩
  · rw [sameTypes]
    exact List.forall₂_same.mpr fun type _ => .refl type
  · rw [sameDirectives]
    exact List.forall₂_same.mpr fun directive _ => .refl directive

/-- The canonical text of a schema that passes the check is its document. -/
theorem Intact.exists_canonicalText_of_isSorted (intact : schema.Intact) {collation : Collation}
    {comparison : Comparison} {text : Text} (isOrder : comparison.nameOrder collation = .ok order)
    (inOrder : schema.isSorted order = true) (written : schema.documentText = .ok text) :
    ∃ sorted, schema.sortedBy collation comparison = .ok sorted ∧
      sorted.documentText = .ok text := by
  obtain ⟨sorted, sorts, -⟩ := intact.sorts order
  have resembles := intact.sorted_resembles_of_isSorted inOrder sorts
  have sameDocument := (toDocument_sameResult_of_print
    (resembles.print_sameResult intact (intact.sort sorts))).1
  refine ⟨sorted, ?_, (sameDocument.mapError Fault.print).eq_ok written⟩
  rw [sortedBy, isOrder]
  exact mapError_eq_ok_iff.mpr sorts

/-- Schemas that resemble each other have one canonical text and one fingerprint, if the defaults of
one of them can be written. -/
theorem Resembles.exists_canonicalText {left right : Schema} (resembles : left.Resembles right)
    (leftIntact : left.Intact) (rightIntact : right.Intact) (writable : left.HasWritableDefaults)
    (order : NameOrder) :
    ∃ leftSorted rightSorted text, left.sort order = .ok leftSorted ∧
      right.sort order = .ok rightSorted ∧ leftSorted.toDocument = .ok text ∧
      rightSorted.toDocument = .ok text ∧ left.fingerprint order = right.fingerprint order := by
  obtain ⟨leftSorted, leftSorts, -⟩ := leftIntact.sorts order
  obtain ⟨rightSorted, rightSorts, -⟩ := rightIntact.sorts order
  have leftSortedIntact := leftIntact.sort leftSorts
  obtain ⟨text, leftPrinted⟩ := leftSortedIntact.exists_print_iff.mpr
    (writable.arranged (leftIntact.isArranged leftSorts))
  have sortedResemble := resembles.sorted leftIntact rightIntact leftSorts rightSorts
  have rightPrinted := (sortedResemble.print_sameResult leftSortedIntact
    (rightIntact.sort rightSorts)).eq_ok leftPrinted
  refine ⟨leftSorted, rightSorted, _, leftSorts, rightSorts, toDocument_of_print leftPrinted,
    toDocument_of_print rightPrinted, ?_⟩
  rw [fingerprint_of_sort leftSorts, fingerprint_of_sort rightSorts, digest, digest, leftPrinted,
    rightPrinted]

namespace Stored

variable {reread : Schema} {text : Text} (stored : Stored schema text reread)
include stored

/-- The defaults of a schema that is stored can be written. -/
theorem hasWritableDefaults (intact : schema.Intact) : schema.HasWritableDefaults := by
  cases stored with
  | document written isRead =>
      obtain ⟨printed, isPrinted, -⟩ := bind_eq_ok_iff.mp (mapError_eq_ok_iff.mp written)
      exact intact.exists_print_iff.mp ⟨printed, isPrinted⟩
  | introspection written isRead =>
      obtain ⟨value, described, -⟩ := toIntrospection_eq_ok_iff.mp (mapError_eq_ok_iff.mp written)
      exact intact.hasWritableDefaults_of_introspection described

/-- An untampered schema resembles what it was stored as, if its defaults are read as they are
written. -/
theorem resembles (untampered : Untampered schema) (rereadable : schema.HasRereadableDefaults) :
    schema.Resembles reread := by
  have intact := untampered.intact
  have faithful : schema.IsFaithful := ⟨intact, untampered.legible, untampered.hasFittingDefaults,
    stored.hasWritableDefaults intact, rereadable⟩
  cases stored with
  | document written isRead =>
      exact faithful.resembles_of_readDocument untampered.isReadable written isRead
  | introspection written isRead =>
      obtain ⟨value, described, reads⟩ :=
        readIntrospection_of_toIntrospection (mapError_eq_ok_iff.mp written)
      rw [reads, mapError_eq_ok_iff] at isRead
      exact faithful.resembles_of_introspection described isRead

/-- A schema has the canonical text and the fingerprint of what it was stored as. -/
theorem exists_canonicalText (untampered : Untampered schema)
    (rereadable : schema.HasRereadableDefaults) (order : NameOrder) :
    ∃ sorted resorted canonical, schema.sort order = .ok sorted ∧
      reread.sort order = .ok resorted ∧ sorted.toDocument = .ok canonical ∧
      resorted.toDocument = .ok canonical ∧ schema.fingerprint order = reread.fingerprint order :=
  (stored.resembles untampered rereadable).exists_canonicalText untampered.intact stored.intact
    (stored.hasWritableDefaults untampered.intact) order

end Stored

end SchemaOrder.Schema
