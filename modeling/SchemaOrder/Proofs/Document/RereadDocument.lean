import SchemaOrder.Proofs.Document.WrittenDocument

/-!
# The definitions of a written schema

A schema that is written as a document is read as a list of definitions: the schema itself where it
is written, the directives and the types that are not standard ones, in the order of the schema.
-/

namespace SchemaOrder

open CodePoint (ofChar)
open Document
open Outcome (bind_eq_ok_iff map_eq_ok_iff pure_eq_ok_iff mapError_eq_ok_iff)

namespace Schema

/-- A part of a schema that is written as a definition. -/
inductive WrittenPart where
  | schema
  | directive (directive : Directive)
  | type (type : NamedType)

namespace WrittenPart

/-- A part that is read again where it is written. -/
def IsReadable (schema : Schema) : WrittenPart → Prop
  | .schema => ∀ operation ∈ schema.operations, IsName operation.2
  | .directive entry => schema.ReadableDirective entry
  | .type entry => IsName entry.name ∧ schema.ReadableBody entry.body

/-- The tokens of a part. -/
def kinds (schema : Schema) : WrittenPart → List TokenKind
  | .schema => schema.schemaKinds
  | .directive entry => schema.directiveKinds entry
  | .type entry => schema.typeKinds entry

/-- What a definition says that was read where a part was written. -/
inductive Tells (schema : Schema) : WrittenPart → Definition → Prop where
  | schema {read : SchemaDefinition} (tells : schema.SchemaTells read) :
      Tells schema .schema (.schema read)
  | directive {entry : Directive} {read : DirectiveDefinition}
      (tells : schema.DirectiveTells entry read) :
      Tells schema (.directive entry) (.directive read)
  | type {entry : NamedType} {read : TypeDefinition} (tells : schema.TypeTells entry read) :
      Tells schema (.type entry) (.type read)

variable {schema : Schema}

/-- The token of a description is a text. -/
theorem descriptionKinds_some (content : Text) :
    ∃ kind, descriptionKinds (some content) = [kind] ∧ Reader.isText kind = true := by
  refine ⟨_, rfl, ?_⟩
  split <;> rfl

/-- A definition is read by what its keyword says, whatever its description. -/
theorem reads_definition (description : Option Text) {word : Text} {others behind : List TokenKind}
    {property : Definition → Prop}
    (reads : ∀ isDescribed start keyword,
      Reads (Reader.keywordDefinition isDescribed start keyword word)
        (descriptionKinds description ++ .name word :: others) behind property) :
    Reads Reader.definition (descriptionKinds description ++ .name word :: others) behind
      property := by
  cases description with
  | none =>
      refine Reads.bindNone (Reads.peekNone ?_) fun here isHere => ?_
      · rintro kind ⟨⟩
        nofun
      rw [isHere]
      refine Reads.bindNone Reads.current fun start isStart => ?_
      rw [isStart]
      have isWord : Reads (pure start) [] ([.name word] ++ others ++ behind)
          fun keyword => keyword.kind = .name word := Reads.pure isStart
      refine Reads.bindNone isWord fun keyword isKeyword => ?_
      simp only [isKeyword]
      exact reads _ _ _
  | some content =>
      obtain ⟨kind, isKind, isText⟩ := descriptionKinds_some content
      rw [isKind] at reads ⊢
      refine Reads.bindNone (Reads.peekNone ?_) fun here isHere => ?_
      · rintro kind ⟨⟩ rfl
        cases isText
      rw [isHere]
      refine Reads.bindNone Reads.current fun start isStart => ?_
      rw [isStart, isText]
      refine Reads.bindNone Reads.lookAhead fun keyword isKeyword => ?_
      simp only [isKeyword]
      exact reads _ _ _

/-- A written part is read as a definition that says what was written. -/
theorem reads {part : WrittenPart} (readable : part.IsReadable schema) {behind : List TokenKind}
    (opens : OpensBehind behind) :
    Reads Reader.definition (part.kinds schema) behind (part.Tells schema) := by
  cases part with
  | schema =>
      refine reads_definition _ fun _ _ _ => reads_schema.weaken ?_
      rintro read ⟨definition, rfl, tells⟩
      exact .schema tells
  | directive entry =>
      refine reads_definition _ fun _ _ _ => (reads_directive readable opens).weaken ?_
      rintro read ⟨definition, rfl, tells⟩
      exact .directive tells
  | type entry =>
      refine reads_definition _ fun isDescribed start keyword => ?_
      have isType : Reader.keywordDefinition isDescribed start keyword (Schema.keyword entry.kind) =
          Reader.typeDefinition entry.kind := by
        cases entry.kind <;> rfl
      rw [isType]
      refine Reads.bind (Reads.description entry.description ?_) fun description isDescription => ?_
      · rintro - kind ⟨⟩
        rfl
      rw [isDescription]
      refine Reads.bindCons Reads.advance fun _ _ => ?_
      exact (reads_typeParts readable.2 opens).map fun read tells => .type tells

/-- A written part opens what stands behind the one before it. -/
theorem kinds_open (part : WrittenPart) : ∃ first others, part.kinds schema = first :: others ∧
    Opens first ∧ first ≠ .endOfDocument := by
  have described : ∀ (description : Option Text) (word : Text) (others : List TokenKind),
      word ∈ definitionWords → ∃ first rest,
        descriptionKinds description ++ .name word :: others = first :: rest ∧ Opens first ∧
          first ≠ .endOfDocument := by
    intro description word others isWord
    cases description with
    | none => exact ⟨_, _, rfl, isWord, nofun⟩
    | some content =>
        refine ⟨_, _, rfl, ?_⟩
        split <;> exact ⟨trivial, nofun⟩
  cases part with
  | schema => exact described _ _ _ (by decide)
  | directive entry => exact described _ _ _ (by decide)
  | type entry =>
      refine described _ _ _ ?_
      cases entry.kind <;> decide

end WrittenPart

/-- Written parts are read as definitions up to the end of the document. -/
theorem reads_definitions {schema : Schema} {parts : List WrittenPart} (nonempty : parts ≠ [])
    (readable : ∀ part ∈ parts, part.IsReadable schema) (fuel : Nat) (known : List Definition) :
    Reads (Reader.definitions fuel known) (parts.flatMap (WrittenPart.kinds schema))
      [.endOfDocument] fun read => ∃ definitions, read = known.reverse ++ definitions ∧
        List.Forall₂ (WrittenPart.Tells schema) parts definitions := by
  induction parts generalizing fuel known with
  | nil => exact absurd rfl nonempty
  | cons part parts inductionHypothesis =>
      cases fuel with
      | zero => exact Reads.unexpected
      | succ fuel =>
          have opens : OpensBehind (parts.flatMap (WrittenPart.kinds schema) ++
              [TokenKind.endOfDocument]) := by
            cases parts with
            | nil =>
                rintro kind ⟨⟩
                trivial
            | cons second parts =>
                obtain ⟨first, others, isCons, opens, -⟩ := second.kinds_open
                rw [List.flatMap_cons, isCons]
                rintro kind ⟨⟩
                exact opens
          rw [List.flatMap_cons]
          refine Reads.bind (WrittenPart.reads (readable part (by simp)) opens)
            fun definition tells => ?_
          cases parts with
          | nil =>
              refine Reads.bindNone Reads.current fun token isKind => ?_
              rw [if_pos isKind]
              exact Reads.pure ⟨[definition], by simp, .cons tells .nil⟩
          | cons second parts =>
              obtain ⟨first, others, isCons, -, notEnd⟩ := second.kinds_open
              have current : Reads Reader.current []
                  ((second :: parts).flatMap (WrittenPart.kinds schema) ++ [.endOfDocument])
                  fun token => token.kind = first := by
                rw [List.flatMap_cons, isCons]
                exact Reads.current
              refine Reads.bindNone current fun token isKind => ?_
              rw [isKind, if_neg notEnd]
              refine (inductionHypothesis (List.cons_ne_nil _ _)
                (fun other mem => readable other (List.mem_cons_of_mem part mem)) fuel
                (definition :: known)).weaken ?_
              rintro read ⟨definitions, rfl, all⟩
              exact ⟨definition :: definitions, by simp, .cons tells all⟩

/-- The parts of a schema that are written. -/
def writtenParts (schema : Schema) : List WrittenPart :=
  (if schema.description.isNone && schema.hasUsualRoots then [] else [.schema]) ++
    (schema.directives.filter fun directive => !isStandardDirective directive.name).map
      .directive ++
    ((schema.index.filter fun entry => !isStandardType entry.name).filterMap Entry.type?).map .type

/-- A schema that is read again where it is written. -/
def IsReadable (schema : Schema) : Prop :=
  ∀ part ∈ schema.writtenParts, part.IsReadable schema

variable {schema : Schema}

/-- Every entry that is written is a type. -/
theorem forall₂_writeType {entries : List Entry} {texts : List Text}
    (written : List.Forall₂ (fun entry text => schema.writeEntry entry = .ok text) entries texts) :
    List.Forall₂ (fun type text => schema.writeType type = .ok text) (entries.filterMap Entry.type?)
      texts := by
  induction written with
  | nil => exact .nil
  | @cons entry text entries texts first others inductionHypothesis =>
      cases entry with
      | defined type => exact .cons (mapError_eq_ok_iff.mp first) inductionHypothesis
      | kindless name => cases first

/-- Every part that is written is cut into its tokens. -/
theorem pieces_of_print (readable : schema.IsReadable) {text : Text}
    (printed : schema.print = .ok text) :
    ∃ texts, text = Text.join "\n\n" texts ∧
      List.Forall₂ (fun part text => Piece text (WrittenPart.kinds schema part))
        schema.writtenParts texts := by
  obtain ⟨directives, areDirectives, printed⟩ := bind_eq_ok_iff.mp printed
  obtain ⟨types, areTypes, printed⟩ := bind_eq_ok_iff.mp printed
  cases printed
  refine ⟨_, rfl, ?_⟩
  unfold IsReadable at readable
  unfold writtenParts at readable ⊢
  simp only [List.forall_mem_append] at readable
  obtain ⟨⟨schemaReadable, directivesReadable⟩, typesReadable⟩ := readable
  refine List.rel_append (List.rel_append ?_ ?_) ?_
  · cases isWritten : schema.writeSchema with
    | none =>
        rw [writeSchema_eq] at isWritten
        split at isWritten
        · rename_i usual
          rw [if_pos usual]
          exact .nil
        · cases isWritten
    | some text =>
        have piece := fun areNames => piece_writeSchema areNames isWritten
        rw [writeSchema_eq] at isWritten
        split at isWritten
        · cases isWritten
        · rename_i unusual
          rw [if_neg unusual] at schemaReadable ⊢
          exact .cons (piece (schemaReadable .schema (by simp))) .nil
  · refine List.forall₂_map_left_iff.mpr (Outcome.forall₂_imp_of_mem
      (Outcome.forall₂_of_mapM areDirectives) (List.forall_mem_map.mp directivesReadable) ?_)
    intro directive text readable written
    exact piece_writeDirective readable (mapError_eq_ok_iff.mp written)
  · refine List.forall₂_map_left_iff.mpr (Outcome.forall₂_imp_of_mem
      (forall₂_writeType (Outcome.forall₂_of_mapM areTypes)) (List.forall_mem_map.mp typesReadable)
      ?_)
    intro type text readable written
    exact piece_writeType readable.1 readable.2 written

/-- The text of a schema is a piece with the tokens of its parts. -/
theorem closedPiece_toDocument (readable : schema.IsReadable) {source : Text}
    (written : schema.toDocument = .ok source) :
    ClosedPiece source (schema.writtenParts.flatMap (WrittenPart.kinds schema)) := by
  obtain ⟨text, printed, isSource⟩ := bind_eq_ok_iff.mp written
  cases isSource
  obtain ⟨texts, rfl, pieces⟩ := pieces_of_print readable printed
  have parts : Piece (Text.join "\n\n" texts)
      (schema.writtenParts.flatMap (WrittenPart.kinds schema)) :=
    Piece.joinBlank rfl (by decide) pieces
  have whole := parts.closed ClosedPiece.feed rfl
  rwa [List.append_nil] at whole

end Schema

namespace Document

/-- A text that is cut into tokens as a whole is read up to its end, or up to a fault. -/
theorem TokenStream.ofText_cases {source : Text} {kinds : List TokenKind}
    (cuts : Cuts source [] kinds) :
    ((TokenStream.ofText source).tokens.map Token.kind = kinds ++ [.endOfDocument] ∧
        (TokenStream.ofText source).fault = none) ∨
      ((TokenStream.ofText source).tokens.map Token.kind <+: kinds ∧
        (TokenStream.ofText source).fault.isSome) := by
  obtain ⟨tokens, ⟨areKinds, fuel, position, enough, read⟩ | ⟨isPrefix, fault, read⟩⟩ :=
    cuts (source.length + 1) 0 [] (by simp)
  · obtain _ | fuel := fuel
    · cases enough
    · rw [List.append_nil] at read
      left
      unfold TokenStream.ofText Cursor.start
      rw [read]
      have ends : readTokens (fuel + 1) ⟨position, []⟩ (tokens.reverse ++ []) =
          ⟨tokens ++ [⟨.endOfDocument, position⟩], none⟩ := by
        simp [readTokens, readToken, skipIgnored, Cursor.skip, Cursor.advance, Cursor.startsWith]
      rw [ends]
      exact ⟨by simp [areKinds], rfl⟩
  · rw [List.append_nil] at read
    right
    unfold TokenStream.ofText Cursor.start
    rw [read]
    exact ⟨isPrefix, rfl⟩

/-- At the end of a document there is no definition. -/
theorem Fails.definitions (fuel : Nat) (known : List Definition) :
    Fails (Reader.definitions fuel known) [.endOfDocument] := by
  have definition : Fails Reader.definition [.endOfDocument] := by
    refine Fails.bindNone (Reads.peekNone (by simp)) fun here isHere => ?_
    rw [isHere]
    refine Fails.bindNone Reads.current fun start isStart => ?_
    rw [isStart]
    have isEnd : Reads (pure start) [] [.endOfDocument]
        fun keyword => keyword.kind = .endOfDocument := Reads.pure isStart
    refine Fails.bindNone isEnd fun keyword isKeyword => ?_
    simp only [isKeyword]
    exact Fails.failAt _ _
  cases fuel with
  | zero => exact Fails.unexpected
  | succ fuel => exact definition.bind _

/-- What a reader gives of a text that is cut into the tokens it reads. -/
theorem of_readWith {α : Type} {reader : Reader α} {source : Text} {kinds : List TokenKind}
    {property : α → Prop} (cuts : Cuts source [] kinds)
    (reads : Reads reader kinds [.endOfDocument] property) {read : α}
    (given : readWith reader source = .ok read) : property read := by
  unfold readWith at given
  have outcome := TokenStream.ofText_cases cuts
  generalize TokenStream.ofText source = stream at outcome given
  obtain ⟨tokens, fault⟩ := stream
  have ahead : ∀ first following, tokens = first :: following →
      Ahead (kinds ++ [.endOfDocument]) ⟨first, following, fault, 0⟩ := by
    rintro first following rfl
    exact outcome.imp_right fun ⟨isPrefix, faulty⟩ =>
      ⟨isPrefix.trans (List.prefix_append _ _), faulty⟩
  cases tokens with
  | nil =>
      rcases outcome with ⟨whole, -⟩ | ⟨-, faulty⟩
      · exact absurd whole.symm (List.append_ne_nil_of_right_ne_nil _ (List.cons_ne_nil _ _))
      · obtain ⟨cause, rfl⟩ := Option.isSome_iff_exists.mp faulty
        cases given
  | cons first following =>
      obtain ⟨⟨result, next⟩, isRead, rfl⟩ := map_eq_ok_iff.mp given
      exact (reads (List.cons_ne_nil _ _) _ result next (ahead first following rfl) isRead).2

/-- A readable literal that is written is read again as it says. -/
theorem parseLiteral_write {literal read : Literal} (readable : literal.IsReadable)
    (parsed : parseLiteral literal.write = .ok read) : read = literal.reread := by
  refine @of_readWith _ _ _ _ (fun read => read = literal.reread) (readable.piece.cuts [] .nil)
    ?_ _ parsed
  refine (readable.reads _).bindLast fun value isValue => ?_
  refine Reads.bindNone Reads.current fun token isKind => ?_
  simp only [isKind, if_true]
  exact Reads.pure isValue

end Document

namespace Schema

/-- The document of a schema, if it is read, is read as definitions of the parts of the schema that
say what was written. -/
theorem parse_toDocument {schema : Schema} (readable : schema.IsReadable) {source : Text}
    (written : schema.toDocument = .ok source) {definitions : List Definition}
    (parsed : parse source = .ok definitions) :
    List.Forall₂ (WrittenPart.Tells schema) schema.writtenParts definitions := by
  refine of_readWith ((closedPiece_toDocument readable written).cuts []) ?_ parsed
  refine Reads.bindNone Reads.bound fun fuel _ => ?_
  by_cases empty : schema.writtenParts = []
  · rw [empty]
    exact Fails.reads (Fails.definitions fuel [])
  · refine (reads_definitions empty readable fuel []).weaken ?_
    rintro read ⟨definitions, rfl, all⟩
    exact all

end Schema

end SchemaOrder
