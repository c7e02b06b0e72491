import SchemaOrder.Proofs.Schema.Defaults
import SchemaOrder.Schema.Fingerprint

/-!
# Writing schemas that mirror each other

Of two schemas that differ in nothing but the order in which objects in defaults hold their
fields, either both can be written or neither, and then as the same document with the same
digest. Each function of the writer has one theorem, that it gives the same result for parts
that agree.
-/

namespace SchemaOrder.Schema

open Outcome

/-- Parts that are written in the same way are so between braces, too. -/
theorem writeParts_sameResult {α : Type} {agrees : α → α → Prop}
    {write write' : Bool → α → Except DefaultFault Text} {lefts rights : List α}
    (related : Arrangement.inOrder.Relates agrees lefts rights)
    (each : ∀ isFirst left right, agrees left right →
      SameResult (write isFirst left) (write' isFirst right)) :
    SameResult (writeParts write lefts) (writeParts write' rights) := by
  unfold writeParts
  apply SameResult.mapM
  refine (related.zipIdx 0).imp ?_
  rintro ⟨first, place⟩ ⟨second, _⟩ ⟨agree, rfl⟩
  exact each _ first second agree

namespace WritesUnder

variable {known : Text → Prop} {left right : Schema} (under : WritesUnder known left right)
include under

/-- Arguments that agree are written in the same way. -/
theorem writeInput_sameResult {input input' : InputValue} (isKnown : known input.type.base)
    (agree : input.Agrees .mirrored input') :
    SameResult (left.writeInput input) (right.writeInput input') := by
  refine (under.defaultText_sameResult isKnown agree).bind fun _ => ?_
  rw [agree.name, agree.type, agree.deprecation]
  exact .refl _

/-- Arguments that agree are written in the same way on lines of their own. -/
theorem writeInputLine_sameResult (indentation : Text) (isFirst : Bool) {input input' : InputValue}
    (isKnown : known input.type.base) (agree : input.Agrees .mirrored input') :
    SameResult (left.writeInputLine indentation isFirst input)
      (right.writeInputLine indentation isFirst input') := by
  refine (under.writeInput_sameResult isKnown agree).bind fun _ => ?_
  rw [agree.description]
  exact .refl _

/-- Lists of input fields that agree are written in the same way on lines of their own. -/
theorem writeInputLines_sameResult (indentation : Text) {inputs inputs' : List InputValue}
    (areKnown : ∀ input ∈ inputs, known input.type.base)
    (related : Arrangement.inOrder.Relates (InputValue.Agrees .mirrored) inputs inputs') :
    SameResult (writeParts (left.writeInputLine indentation) inputs)
      (writeParts (right.writeInputLine indentation) inputs') :=
  writeParts_sameResult
    (forall₂_imp_of_mem related areKnown fun _ _ isKnown agree => And.intro isKnown agree)
    fun isFirst _ _ both => under.writeInputLine_sameResult indentation isFirst both.1 both.2

/-- Lists of arguments that agree are written in the same way. -/
theorem writeArguments_sameResult (indentation : Text) {inputs inputs' : List InputValue}
    (areKnown : ∀ input ∈ inputs, known input.type.base)
    (related : Arrangement.inOrder.Relates (InputValue.Agrees .mirrored) inputs inputs') :
    SameResult (left.writeArguments indentation inputs)
      (right.writeArguments indentation inputs') := by
  unfold writeArguments
  rw [related.isEmpty_eq, related.all_eq _ fun _ _ agree => by rw [agree.description]]
  split
  · exact .refl _
  · split
    · have each := forall₂_imp_of_mem related areKnown
        fun _ _ isKnown agree => under.writeInput_sameResult isKnown agree
      exact (SameResult.mapM each).bind fun _ => .refl _
    · have lines := under.writeInputLines_sameResult ("  " ++ indentation) areKnown related
      exact lines.bind fun _ => .refl _

/-- Fields that agree are written in the same way. -/
theorem writeField_sameResult (isFirst : Bool) {field field' : Field}
    (areKnown : ∀ argument ∈ field.arguments, known argument.type.base)
    (agree : field.Agrees .mirrored field') :
    SameResult (left.writeField isFirst field) (right.writeField isFirst field') := by
  refine (under.writeArguments_sameResult "  " areKnown agree.arguments).bind fun _ => ?_
  rw [agree.name, agree.type, agree.description, agree.deprecation]
  exact .refl _

/-- Types that agree are written in the same way. -/
theorem writeType_sameResult {type type' : NamedType}
    (areKnown : ∀ input ∈ type.body.inputs, known input.type.base)
    (agree : type.Agrees .mirrored type') :
    SameResult (left.writeType type) (right.writeType type') := by
  obtain ⟨name, description, body⟩ := type
  obtain ⟨name', description', body'⟩ := type'
  obtain ⟨rfl, rfl, bodies, -⟩ := agree
  have sameFields : ∀ {fields fields' : List Field},
      (∀ input ∈ fields.flatMap Field.arguments, known input.type.base) →
      Arrangement.inOrder.Relates (Field.Agrees .mirrored) fields fields' →
      SameResult (writeParts left.writeField fields) (writeParts right.writeField fields') := by
    intro fields fields' areKnown related
    have eachKnown : ∀ field ∈ fields, ∀ argument ∈ field.arguments, known argument.type.base :=
      fun field mem argument inField =>
        areKnown argument (List.mem_flatMap.mpr ⟨field, mem, inField⟩)
    refine writeParts_sameResult (forall₂_imp_of_mem related eachKnown
      fun _ _ areKnown agree => And.intro areKnown agree) fun isFirst _ _ both => ?_
    exact under.writeField_sameResult isFirst both.1 both.2
  refine SameResult.bind ?_ fun _ => .refl _
  cases bodies with
  | scalar specifiedBy => exact .refl _
  | object sameInterfaces related | interface sameInterfaces related =>
      rw [Arrangement.Relates.inOrder_eq_iff_eq.mp sameInterfaces]
      exact (sameFields areKnown related).bind fun _ => .refl _
  | union sameMembers =>
      rw [Arrangement.Relates.inOrder_eq_iff_eq.mp sameMembers]
      exact .refl _
  | enum sameValues =>
      rw [Arrangement.Relates.inOrder_eq_iff_eq.mp sameValues]
      exact .refl _
  | inputObject related oneOf =>
      have lines := under.writeInputLines_sameResult "  " areKnown related
      exact lines.bind fun _ => .refl _

/-- Directives that agree are written in the same way. -/
theorem writeDirective_sameResult {directive directive' : Directive}
    (areKnown : ∀ argument ∈ directive.arguments, known argument.type.base)
    (agree : directive.Agrees .mirrored directive') :
    SameResult (left.writeDirective directive) (right.writeDirective directive') := by
  refine (under.writeArguments_sameResult [] areKnown agree.arguments).bind fun _ => ?_
  rw [agree.name, agree.description, agree.deprecation, agree.isRepeatable,
    Arrangement.Relates.inOrder_eq_iff_eq.mp agree.locations]
  exact .refl _

end WritesUnder

/-- Schemas are written in the same way themselves if they have the same description and the same
operations. -/
theorem writeSchema_congr {left right : Schema} (sameDescription : left.description =
    right.description) (sameRoots : left.roots = right.roots) :
    left.writeSchema = right.writeSchema := by
  unfold writeSchema hasUsualRoots
  rw [sameDescription, sameRoots]

/-- Two schemas are written as the same text if the schemas themselves, their directives and their
entries are written in the same way. -/
theorem print_sameResult_of_parts {left right : Schema}
    (sameSchema : left.writeSchema = right.writeSchema)
    (directives : List.Forall₂ (fun directive directive' =>
        SameResult (left.writeDirective directive) (right.writeDirective directive'))
      (left.directives.filter fun directive => !isStandardDirective directive.name)
      (right.directives.filter fun directive => !isStandardDirective directive.name))
    (entries : List.Forall₂ (fun entry entry' =>
        SameResult (left.writeEntry entry) (right.writeEntry entry'))
      (left.index.filter fun entry => !isStandardType entry.name)
      (right.index.filter fun entry => !isStandardType entry.name)) :
    SameResult left.print right.print := by
  unfold print
  rw [sameSchema]
  exact (SameResult.mapM (directives.imp fun _ _ same => same.mapError PrintFault.default)).bind
    fun _ => (SameResult.mapM entries).bind fun _ => .refl _

/-- Schemas that are written as the same text are the same document, with the same digest. -/
theorem toDocument_sameResult_of_print {left right : Schema}
    (same : SameResult left.print right.print) :
    SameResult left.toDocument right.toDocument ∧ SameResult left.digest right.digest :=
  ⟨same.bind fun _ => .refl _, (same.mapError Fault.print).bind fun _ => .refl _⟩

namespace Mirrors

variable {left right : Schema} (mirrors : left.Mirrors right)
include mirrors

/-- Entries of the index that agree are written in the same way. -/
theorem writeEntry_sameResult {entry entry' : Entry} (agree : entry.Agrees .mirrored entry') :
    SameResult (left.writeEntry entry) (right.writeEntry entry') := by
  cases agree with
  | defined types =>
      exact (mirrors.writesUnder.writeType_sameResult (fun _ _ => trivial) types).mapError
        PrintFault.default
  | kindless name => exact .refl _

/-- Schemas that mirror each other are written as the same text. -/
theorem print_sameResult : SameResult left.print right.print := by
  have directives := Arrangement.Relates.filter
    (fun directive => !isStandardDirective directive.name) mirrors.agrees.directives
    fun _ _ agree => by rw [agree.name]
  have entries := Arrangement.Relates.filter (fun entry => !isStandardType entry.name)
    mirrors.agrees.index fun _ _ agree => by rw [agree.name]
  have sameRoots : left.roots = right.roots := by
    rw [roots, roots, mirrors.agrees.query, mirrors.agrees.mutation, mirrors.agrees.subscription]
  refine print_sameResult_of_parts (writeSchema_congr mirrors.agrees.description sameRoots)
    (directives.imp ?_) (entries.imp ?_)
  · exact fun _ _ agree => mirrors.writesUnder.writeDirective_sameResult (fun _ _ => trivial) agree
  · exact fun _ _ agree => mirrors.writeEntry_sameResult agree

/-- Schemas that mirror each other are the same document. -/
theorem toDocument_sameResult : SameResult left.toDocument right.toDocument :=
  (toDocument_sameResult_of_print mirrors.print_sameResult).1

/-- Schemas that mirror each other have the same digest. -/
theorem digest_sameResult : SameResult left.digest right.digest :=
  (toDocument_sameResult_of_print mirrors.print_sameResult).2

end Mirrors

end SchemaOrder.Schema
