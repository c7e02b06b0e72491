import SchemaOrder.Proofs.Document.TypeDefinitions

/-!
# Documents that are read again

This module holds what a whole schema is cut into where it is written as a document, and what the
document is read as: the definitions of the schema, its directives and its types, in their order,
each with what was written of it.
-/

namespace SchemaOrder

open CodePoint (ofChar)
open Document
open Outcome (bind_eq_ok_iff pure_eq_ok_iff mapError_eq_ok_iff)

namespace Schema

variable {schema : Schema}

/-- A directive that is read again where it is written. -/
structure ReadableDirective (schema : Schema) (directive : Directive) : Prop where
  isName : IsName directive.name
  arguments : ∀ argument ∈ directive.arguments, schema.ReadableInput argument
  locations : ∀ location ∈ directive.locations, IsName location

/-- The tokens of the locations of a directive. -/
def locationsKinds (locations : List Text) : List TokenKind :=
  ((locations.map fun location => [TokenKind.name location]).intersperse [.mark .bar]).flatten

/-- The tokens of the word for what may be applied more than once. -/
def repeatableKinds (isRepeatable : Bool) : List TokenKind :=
  if isRepeatable then [.name "repeatable"] else []

/-- The tokens of a directive. -/
def directiveKinds (schema : Schema) (directive : Directive) : List TokenKind :=
  descriptionKinds directive.description ++ (.name "directive" :: .mark .at ::
    .name directive.name :: (schema.argumentsKinds directive.arguments ++
      (appliedKinds (deprecationApplied directive.deprecation) ++
        (repeatableKinds directive.isRepeatable ++
          (.name "on" :: locationsKinds directive.locations)))))

/-- What the definition of a directive says that was read where a directive was written. A directive
that is deprecated is not read again. -/
structure DirectiveTells (schema : Schema) (directive : Directive) (read : DirectiveDefinition) :
    Prop where
  description : read.description = directive.description
  name : read.name = directive.name
  arguments : List.Forall₂ (fun argument =>
    schema.InputTells (spokenDescription directive.arguments argument) argument)
      directive.arguments read.arguments
  isRepeatable : read.isRepeatable = directive.isRepeatable
  locations : read.locations = directive.locations
  deprecation : directive.deprecation = none

/-- A directive is cut into its tokens. -/
theorem piece_writeDirective {directive : Directive}
    (readable : schema.ReadableDirective directive) {text : Text}
    (written : schema.writeDirective directive = .ok text) :
    Piece text (schema.directiveKinds directive) := by
  have noIndentation : IsIndentation [] := nofun
  obtain ⟨arguments, areArguments, isText⟩ := bind_eq_ok_iff.mp written
  cases isText
  obtain ⟨argumentsPiece, apart⟩ :=
    piece_writeArguments noIndentation readable.arguments areArguments
  have blank : ClosedPiece " " [] := ClosedPiece.ignored (by decide)
  have word : ClosedPiece "directive @" [.name "directive", .mark .at] :=
    (ClosedPiece.word (by decide : IsName "directive")).append (ClosedPiece.mark .at)
  have repeatable : Piece (if directive.isRepeatable then " repeatable" else [])
      (repeatableKinds directive.isRepeatable) := by
    unfold repeatableKinds
    split
    · exact blank.before (Piece.name (by decide : IsName "repeatable"))
    · exact ClosedPiece.nil.piece
  have apartRepeatable : Apart (if directive.isRepeatable then " repeatable" else []) := by
    split
    · exact .of_endsToken rfl
    · exact .nil
  have on : ClosedPiece " on " [.name "on"] :=
    blank.append (ClosedPiece.word (by decide : IsName "on"))
  have separator : ClosedPiece " | " [.mark .bar] :=
    (blank.append (ClosedPiece.mark .bar)).append blank
  have pieces : List.Forall₂ (fun name text => Piece text [.name name]) directive.locations
      directive.locations :=
    List.forall₂_same.mpr fun name mem => Piece.name (readable.locations name mem)
  have front := (closedPiece_description noIndentation directive.description true).append word
  have named := front.before (Piece.name readable.isName)
  have given := named.append apart argumentsPiece.piece
  have deprecated := given.append (apart_writeApplied _)
    (piece_writeApplied (isReadable_deprecation directive.deprecation))
  have repeated := (deprecated.append apartRepeatable repeatable).closed on rfl
  have whole := repeated.before (Piece.join separator rfl pieces)
  rw [writeDeprecation_eq]
  simp only [List.append_assoc] at whole ⊢
  exact whole

/-- A location is read as it is, if it is one. -/
theorem reads_location (location : Text) (behind : List TokenKind) :
    Reads Reader.directiveLocation [.name location] behind fun read => read = location := by
  refine Reads.bindNone Reads.current fun token isKind => ?_
  refine Reads.bindLast (Reads.name location) fun read isRead => ?_
  split
  · exact Reads.pure isRead
  · exact Reads.failAt _ _

/-- Where a definition begins, no location is read. -/
theorem fails_location {behind : List TokenKind} (opens : OpensBehind behind) :
    Fails Reader.directiveLocation behind := by
  intro input ahead result given
  cases behind with
  | nil => exact ahead.ne_nil rfl
  | cons kind behind =>
      unfold Reader.directiveLocation at given
      obtain ⟨token, state, isToken, given⟩ := run_bind_eq_ok given
      cases isToken
      obtain ⟨location, next, isName, given⟩ := run_bind_eq_ok given
      have isKind := ahead.current.symm.trans (Fails.kind_of_run_name isName)
      have isWord : location ∈ definitionWords := by
        have opens := opens kind rfl
        rwa [isKind] at opens
      have noLocation : ∀ word ∈ definitionWords, directiveLocations.contains word = false := by
        decide
      rw [noLocation location isWord] at given
      cases given

/-- Locations are read as they were written, if there are any, and are not read otherwise. -/
theorem reads_locations (locations : List Text) {behind : List TokenKind}
    (opens : OpensBehind behind) :
    Reads (Reader.separated .bar Reader.directiveLocation) (locationsKinds locations) behind
      fun read => read = locations := by
  by_cases none : locations = []
  · subst none
    refine Reads.bindNone (Reads.acceptNone (opens.noMark _)) fun _ _ => ?_
    refine Reads.bindNone Reads.bound fun fuel _ => ?_
    cases fuel with
    | zero => exact Reads.unexpected
    | succ fuel => exact Fails.reads ((fails_location opens).bind _)
  · refine (Reads.separated (fun location _ behind => reads_location location behind)
      (fun location _ => ⟨_, _, rfl, nofun⟩) none (opens.noMark _)).weaken fun read all => ?_
    rw [Literal.eq_map_of_forall₂ all, List.map_id']

/-- Whether a directive is repeatable is read as it was written. -/
theorem reads_repeatable (isRepeatable : Bool) {behind : List TokenKind} :
    Reads (Reader.acceptKeyword "repeatable")
      (repeatableKinds isRepeatable) (.name "on" :: behind)
      fun taken => taken = isRepeatable := by
  cases isRepeatable with
  | true => exact Reads.acceptKeyword _
  | false =>
      refine Reads.acceptKeywordNone ?_
      rintro kind ⟨⟩
      decide

/-- A directive is read as it was written, if it is not deprecated. -/
theorem reads_directive {directive : Directive} (readable : schema.ReadableDirective directive)
    {behind : List TokenKind} (opens : OpensBehind behind) :
    Reads Reader.directiveDefinition (schema.directiveKinds directive) behind
      fun read => ∃ definition, read = .directive definition ∧
        schema.DirectiveTells directive definition := by
  have noArguments : ∀ kind ∈ (appliedKinds (deprecationApplied directive.deprecation) ++
      (repeatableKinds directive.isRepeatable ++
        (TokenKind.name "on" :: locationsKinds directive.locations)) ++ behind).head?,
      kind ≠ .mark .openParenthesis := by
    rw [List.append_assoc]
    refine head_appliedKinds _ ?_ (by decide)
    cases directive.isRepeatable <;> rintro kind ⟨⟩ <;> nofun
  refine Reads.bind (Reads.description directive.description ?_) fun description isDescription => ?_
  · rintro - kind ⟨⟩
    rfl
  refine Reads.bindCons (Reads.expectKeyword _) fun _ _ => ?_
  refine Reads.bindCons (Reads.expect .at) fun _ _ => ?_
  refine Reads.bindCons (Reads.name directive.name) fun name isName => ?_
  refine Reads.bind (reads_arguments readable.arguments noArguments)
    fun arguments areArguments => ?_
  cases deprecation : directive.deprecation with
  | none =>
      change Reads _ (repeatableKinds directive.isRepeatable ++
        (.name "on" :: locationsKinds directive.locations)) _ _
      refine Reads.bind (reads_repeatable directive.isRepeatable) fun repeatable isRepeatable => ?_
      refine Reads.bindCons (Reads.expectKeyword _) fun _ _ => ?_
      refine (reads_locations directive.locations opens).map fun locations areLocations => ?_
      exact ⟨_, rfl, isDescription, isName, areArguments, isRepeatable, areLocations, deprecation⟩
  | some reason =>
      refine Reads.bindNone (Reads.acceptKeywordNone ?_) fun _ _ => ?_
      · rintro kind ⟨⟩
        nofun
      refine Fails.reads ((Fails.expectKeyword ?_).bind _)
      rintro kind ⟨⟩
      nofun

/-- The operations that are served, with the types that serve them. -/
def operations (schema : Schema) : List (Operation × Text) :=
  (schema.query.map fun name => (Operation.query, name)).toList ++
    (schema.mutation.map fun name => (Operation.mutation, name)).toList ++
      (schema.subscription.map fun name => (Operation.subscription, name)).toList

/-- The tokens of what is said about an operation. -/
def operationKinds (operation : Operation × Text) : List TokenKind :=
  [.name operation.1.word, .mark .colon, .name operation.2]

/-- The tokens of the schema itself. -/
def schemaKinds (schema : Schema) : List TokenKind :=
  descriptionKinds schema.description ++ (.name "schema" :: .mark .openBrace ::
    (schema.operations.flatMap operationKinds ++ [.mark .closeBrace]))

/-- What the definition of the schema says that was read where the schema was written. -/
structure SchemaTells (schema : Schema) (read : SchemaDefinition) : Prop where
  description : read.description = schema.description
  directives : read.directives = []
  operations : read.operations = schema.operations

/-- An operation and the type that serves it, as they are written. -/
def writeOperation (operation : Operation × Text) : Text :=
  "  " ++ (operation.1.word ++ ": ") ++ operation.2

/-- The schema itself is written with its operations, if it is written. -/
theorem writeSchema_eq (schema : Schema) : schema.writeSchema =
    if schema.description.isNone && schema.hasUsualRoots then none
    else some (writeDescription schema.description [] true ++ "schema \x7b\n" ++
      Text.join "\n" (schema.operations.map writeOperation) ++ "\n\x7d") := by
  obtain ⟨description, query, mutation, subscription⟩ := schema
  unfold writeSchema
  refine if_congr Iff.rfl rfl ?_
  cases query <;> cases mutation <;> cases subscription <;> rfl

/-- The schema itself is cut into its tokens. -/
theorem piece_writeSchema (areNames : ∀ operation ∈ schema.operations, IsName operation.2)
    {text : Text} (written : schema.writeSchema = some text) :
    Piece text schema.schemaKinds := by
  have noIndentation : IsIndentation [] := nofun
  have blank : ClosedPiece "  " [] := isIndentation_inside.closedPiece
  have opening : ClosedPiece "schema \x7b\n" [.name "schema", .mark .openBrace] :=
    ((ClosedPiece.word (by decide : IsName "schema")).append (ClosedPiece.mark .openBrace)).append
      ClosedPiece.feed
  have closing : ClosedPiece "\n\x7d" [.mark .closeBrace] :=
    ClosedPiece.feed.append (ClosedPiece.mark .closeBrace)
  have pieces : ∀ operation ∈ schema.operations,
      Piece (writeOperation operation) (operationKinds operation) := by
    intro operation mem
    have isWord : IsName operation.1.word := by
      cases operation.1 <;> decide
    exact (blank.append (ClosedPiece.label isWord)).before (Piece.name (areNames operation mem))
  have front := (closedPiece_description noIndentation schema.description true).append opening
  have inside := front.before (Piece.joinLines (Piece.forall₂_map pieces))
  have whole := (inside.closed closing rfl).piece
  rw [writeSchema_eq] at written
  split at written
  · cases written
  · cases written
    simp only [List.append_assoc] at whole ⊢
    exact whole

/-- What is said about an operation is read as it was written. -/
theorem isPart_operation (operation : Operation × Text) :
    IsPart Reader.operationTypeDefinition Quiet .closeBrace (operationKinds operation)
      fun read => read = operation := by
  obtain ⟨operation, name⟩ := operation
  refine ⟨fun behind _ => ?_, _, _, rfl, trivial, nofun⟩
  have kind : Reads Reader.operationType [.name operation.word]
      ([.mark .colon, .name name] ++ behind) fun read => read = operation := by
    refine Reads.bindNone Reads.current fun token isKind => ?_
    refine Reads.bindLast (Reads.name operation.word) fun word isWord => ?_
    have found : [Operation.query, .mutation, .subscription].find?
        (fun operation => operation.word = word) = some operation := by
      rw [isWord]
      cases operation <;> decide
    rw [found]
    exact Reads.pure rfl
  refine Reads.bind kind fun read isRead => ?_
  refine Reads.bindCons (Reads.expect .colon) fun _ _ => ?_
  refine (Reads.name name).map fun read' isName => ?_
  rw [isRead, isName]

/-- The schema itself is read as it was written, if it has operations, and is not read otherwise. -/
theorem reads_schema {behind : List TokenKind} :
    Reads Reader.schemaDefinition schema.schemaKinds behind
      fun read => ∃ definition, read = .schema definition ∧ schema.SchemaTells definition := by
  refine Reads.bind (Reads.description schema.description ?_) fun description isDescription => ?_
  · rintro - kind ⟨⟩
    rfl
  refine Reads.bindCons (Reads.expectKeyword _) fun _ _ => ?_
  refine Reads.bindNone (reads_nothingApplied ?_ ?_) fun directives isNone => ?_
  · rintro kind ⟨⟩
    nofun
  · rintro kind ⟨⟩
    nofun
  by_cases none : schema.operations = []
  · rw [none]
    have noName : Fails Reader.name (.mark .closeBrace :: behind) := by
      refine Fails.name ?_
      rintro kind ⟨⟩
      nofun
    have fails : Fails Reader.operationTypeDefinition (.mark .closeBrace :: behind) :=
      Fails.bind (Fails.bindNone Reads.current fun token _ => noName.bind _) _
    exact (Reads.manyNone fails fun _ => False).map fun _ => False.elim
  · refine (Reads.many (fun operation _ => isPart_operation operation) none (by simp [Quiet])
      .openBrace).map fun operations all => ?_
    refine ⟨_, rfl, isDescription, isNone, ?_⟩
    rw [Literal.eq_map_of_forall₂ all, List.map_id']

end Schema

end SchemaOrder
