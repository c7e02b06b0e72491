import SchemaOrder.Proofs.Schema.Findings
import SchemaOrder.Proofs.Schema.RearrangedDescriptions
import SchemaOrder.Proofs.Sorting.SortedLegibility
import SchemaOrder.Proofs.Sorting.Structure

/-!
# Descriptions of sorted copies

The sorted copy of a schema holds the same things in another order, and validation finds nothing in
it exactly if it finds nothing in the schema. Whether a schema was read with trust or without it,
its sorted copy is therefore described exactly if it is, by the same value but for order:
`sort_keeps_description`.
-/

namespace SchemaOrder

open Schema Outcome

/-- What is known of the validity of a schema that was made of a draft is whether it is trusted. -/
theorem Schema.Draft.validation_of_assemble {ε : Type} {draft : Draft ε} {schema : Schema}
    (assembled : draft.assemble = .ok schema) :
    schema.validation = if draft.isTrusted then some [] else none := by
  obtain ⟨_, -, rest⟩ := bind_eq_ok_iff.mp assembled
  obtain ⟨_, -, rest⟩ := bind_eq_ok_iff.mp rest
  cases rest
  rfl

/-- Nobody has validated a schema that was just read, but it may be trusted. -/
theorem Source.validation_of_read {volume : Volume} {source : Source} {schema : Schema}
    (given : source.read volume = .ok schema) :
    schema.validation = none ∨ schema.validation = some [] := by
  have ofDraft : ∀ {draft : Draft SchemaFault}, draft.assemble = .ok schema →
      schema.validation = none ∨ schema.validation = some [] := by
    intro draft assembled
    rw [Draft.validation_of_assemble assembled]
    cases draft.isTrusted with
    | false => exact .inl rfl
    | true => exact .inr rfl
  cases made_of_read given with
  | ofDocument _ defined =>
      obtain ⟨_, -, rest⟩ := bind_eq_ok_iff.mp defined
      obtain ⟨_, -, rest⟩ := bind_eq_ok_iff.mp rest
      obtain ⟨_, -, rest⟩ := bind_eq_ok_iff.mp rest
      exact ofDraft rest
  | ofIntrospection described =>
      unfold ofIntrospection at described
      split at described
      · simp only [bind_eq_ok_iff] at described
        obtain ⟨_, -, _, -, _, -, _, -, _, -, _, -, _, -, _, -, _, -, rest⟩ := described
        exact ofDraft rest
      · cases described

namespace Schema

variable {order : NameOrder} {schema sorted : Schema}

/-- The sorted copy of an intact schema holds the same things in another order. -/
theorem Intact.rearranges_sort (intact : schema.Intact) (sorts : schema.sort order = .ok sorted) :
    schema.Rearranges sorted := by
  have arranged := intact.isArranged sorts
  have sameDescription : schema.description = sorted.description := by
    obtain ⟨-, _, -, -, rfl⟩ := (sort_eq_ok_iff intact.unique).mp sorts
    rfl
  refine ⟨arranged.sameInputs, sameDescription, arranged.query.symm, arranged.mutation.symm,
    arranged.subscription.symm, ?_, ?_⟩
  · rw [arranged.directives]
    exact .sort_map Directive.name fun directive _ => directive.agrees_arranged
  · rw [arranged.types]
    exact .sort_map NamedType.name fun type _ => type.agrees_arranged

/-- Validation has nothing to say of a schema that was just read exactly if it has nothing to say of
its sorted copy. -/
theorem Intact.validationMessages_sort_eq_nil_iff (intact : schema.Intact)
    (sorts : schema.sort order = .ok sorted)
    (fresh : schema.validation = none ∨ schema.validation = some []) :
    schema.validationMessages = [] ↔ sorted.validationMessages = [] := by
  unfold validationMessages
  rw [validation_sort sorts]
  rcases fresh with unknown | trusted
  · simp only [unknown, Option.map_none, List.map_eq_nil_iff]
    exact (intact.violations_sort_eq_nil_iff sorts).symm
  · simp only [trusted, Option.map_some]

/-- A schema that was just read and its sorted copy are described together, by the same value but
for order. -/
theorem Intact.describes_sort (intact : schema.Intact) (sorts : schema.sort order = .ok sorted)
    (fresh : schema.validation = none ∨ schema.validation = some []) :
    Matches Describe.Rearranged schema.introspection sorted.introspection :=
  (intact.rearranges_sort sorts).introspection_matches intact.index (intact.sort sorts).index
    (intact.validationMessages_sort_eq_nil_iff sorts fresh)

/-- The text of a description is its value, written on lines of its own. -/
theorem introspectionText_eq_ok_iff {text : Text} :
    schema.introspectionText = .ok text ↔
      ∃ value, schema.introspection = .ok value ∧
        value.document ++ Text.ofString "\n" = text := by
  rw [introspectionText, mapError_eq_ok_iff, toIntrospection_eq_ok_iff]

/-- The description of a schema can be written whenever there is one. -/
theorem exists_introspectionText_iff :
    (∃ text, schema.introspectionText = .ok text) ↔
      ∃ value, schema.introspection = .ok value := by
  constructor
  · rintro ⟨text, isText⟩
    obtain ⟨value, described, -⟩ := introspectionText_eq_ok_iff.mp isText
    exact ⟨value, described⟩
  · rintro ⟨value, described⟩
    exact ⟨_, introspectionText_eq_ok_iff.mpr ⟨value, described, rfl⟩⟩

/-- A schema that was just read is described exactly if its sorted copy is, which there always is,
and the two descriptions are the same but for the order of lists and that of the fields of objects
in defaults. -/
theorem sort_keeps_description {volume : Volume} {source : Source} {schema : Schema}
    (given : source.read volume = .ok schema) {collation : Collation} {comparison : Comparison}
    (isOrder : comparison.nameOrder collation = .ok order) :
    ∃ sorted, schema.sortedBy collation comparison = .ok sorted ∧
      ((∃ text, sorted.introspectionText = .ok text) ↔
        ∃ text, schema.introspectionText = .ok text) ∧
      ∀ text sortedText, schema.introspectionText = .ok text →
        sorted.introspectionText = .ok sortedText →
          ∃ value sortedValue, Json.parse text = .ok value ∧
            Json.parse sortedText = .ok sortedValue ∧ Describe.Rearranged value sortedValue := by
  have intact := Source.read_intact given
  obtain ⟨sorted, sorts, -⟩ := intact.sorts order
  have matched := intact.describes_sort sorts (Source.validation_of_read given)
  refine ⟨sorted, ?_, ?_, ?_⟩
  · rw [sortedBy, isOrder]
    exact mapError_eq_ok_iff.mpr sorts
  · rw [exists_introspectionText_iff, exists_introspectionText_iff]
    exact matched.exists_ok_iff.symm
  · rintro _ _ isText isSortedText
    obtain ⟨value, isValue, rfl⟩ := introspectionText_eq_ok_iff.mp isText
    obtain ⟨sortedValue, isSortedValue, rfl⟩ := introspectionText_eq_ok_iff.mp isSortedText
    exact ⟨value, sortedValue, Json.parse_document (isPlain_introspection isValue),
      Json.parse_document (isPlain_introspection isSortedValue),
      matched.of_ok isValue isSortedValue⟩

/-- A document of an input object that every value of has to hold another value of. -/
def ringDocument : Text :=
  "type Query { walk(from: Ring): Int } input Ring { next: Ring! }"

/-- A small schema that keeps the rules is described before and after sorting, by the same value but
for order; one with a circle of input objects is not described before or after. -/
theorem sort_keeps_description_starterDocument :
    (∃ schema sorted text sortedText value sortedValue,
      (Source.document starterDocument false).read noFiles = .ok schema ∧
      schema.sortedBy AsciiCollation.key (.options .null) = .ok sorted ∧
      schema.introspectionText = .ok text ∧ sorted.introspectionText = .ok sortedText ∧
      Json.parse text = .ok value ∧ Json.parse sortedText = .ok sortedValue ∧
      Describe.Rearranged value sortedValue) ∧
    ∃ schema sorted, (Source.document ringDocument false).read noFiles = .ok schema ∧
      schema.sortedBy AsciiCollation.key (.options .null) = .ok sorted ∧
      (¬ ∃ text, schema.introspectionText = .ok text) ∧
      ¬ ∃ text, sorted.introspectionText = .ok text := by
  constructor
  · have succeeds : (do
        let schema ← (Source.document starterDocument false).read noFiles
        let _ ← schema.introspectionText : Except Fault Unit).toOption = some () := by
      decide +kernel
    obtain ⟨schema, isRead, rest⟩ := bind_eq_ok_iff.mp (eq_ok_of_toOption succeeds)
    obtain ⟨text, written, -⟩ := bind_eq_ok_iff.mp rest
    obtain ⟨sorted, sorts, together, alike⟩ := sort_keeps_description isRead
      (show (Comparison.options .null).nameOrder AsciiCollation.key = .ok .byCodePoint from rfl)
    obtain ⟨sortedText, isSorted⟩ := together.mpr ⟨text, written⟩
    obtain ⟨value, sortedValue, isValue, isSortedValue, rearranged⟩ :=
      alike text sortedText written isSorted
    exact ⟨schema, sorted, text, sortedText, value, sortedValue, isRead, sorts, written, isSorted,
      isValue, isSortedValue, rearranged⟩
  · have fails : (do
        let schema ← (Source.document ringDocument false).read noFiles
        return schema.introspectionText.toOption.isNone : Except Fault Bool).toOption =
          some true := by
      decide +kernel
    obtain ⟨schema, isRead, rest⟩ := bind_eq_ok_iff.mp (eq_ok_of_toOption fails)
    obtain ⟨sorted, sorts, together, -⟩ := sort_keeps_description isRead
      (show (Comparison.options .null).nameOrder AsciiCollation.key = .ok .byCodePoint from rfl)
    have undescribed : ¬ ∃ text, schema.introspectionText = .ok text := by
      rintro ⟨text, written⟩
      rw [written] at rest
      cases pure_eq_ok_iff.mp rest
    exact ⟨schema, sorted, isRead, sorts, undescribed, mt together.mp undescribed⟩

end Schema

end SchemaOrder
