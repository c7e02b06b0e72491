import SchemaOrder.Proofs.Document.DefinitionParts

/-!
# Definitions of types that are read again

This module holds what the definition of a type is cut into where a schema is written, and what it
is read as.
-/

namespace SchemaOrder

open CodePoint (ofChar)
open Document
open Outcome (bind_eq_ok_iff pure_eq_ok_iff)

namespace Document

/-- The words that the definitions of a written schema begin with. -/
def definitionWords : List Text :=
  ["schema", "directive", "scalar", "type", "interface", "union", "enum", "input"]

/-- What may stand behind a definition: the next one with its description, or the end. -/
def Opens : TokenKind → Prop
  | .name word => word ∈ definitionWords
  | .text _ | .block _ | .endOfDocument => True
  | _ => False

/-- What stands behind a definition opens the next one. -/
def OpensBehind (behind : List TokenKind) : Prop :=
  ∀ kind ∈ behind.head?, Opens kind

/-- What opens the next definition is no mark. -/
theorem OpensBehind.noMark {behind : List TokenKind} (opens : OpensBehind behind) (sign : Mark) :
    ∀ kind ∈ behind.head?, kind ≠ .mark sign := by
  rintro kind mem rfl
  exact opens _ mem

/-- It is none of the words that begin no definition. -/
theorem OpensBehind.noWord {behind : List TokenKind} (opens : OpensBehind behind) {word : Text}
    (other : word ∉ definitionWords) : ∀ kind ∈ behind.head?, kind ≠ .name word := by
  rintro kind mem rfl
  exact other (opens _ mem)

/-- A word with the blank behind it. -/
theorem ClosedPiece.word {word : Text} (isName : IsName word) :
    ClosedPiece (word ++ " ") [.name word] := by
  have blank : ClosedPiece " " [] := ClosedPiece.ignored (by decide)
  exact (Piece.name isName).closed blank rfl

/-- Names with a mark between neighbours are read as they are. -/
theorem reads_separatedNames {sign : Mark} {names : List Text} (nonempty : names ≠ [])
    {behind : List TokenKind} (absent : ∀ kind ∈ behind.head?, kind ≠ .mark sign) :
    Reads (Reader.separated sign Reader.name)
      ((names.map fun name => [TokenKind.name name]).intersperse [.mark sign]).flatten behind
      fun read => read = names :=
  (Reads.separated (fun name _ _ => Reads.name name) (fun name _ => ⟨_, _, rfl, nofun⟩) nonempty
    absent).weaken fun read all => by
      rw [Literal.eq_map_of_forall₂ all, List.map_id']

end Document

namespace Schema

variable {schema : Schema}

/-- The tokens of the interfaces that a type implements, if there are any. -/
def interfacesKinds (interfaces : List Text) : List TokenKind :=
  if interfaces = [] then []
  else .name "implements" ::
    ((interfaces.map fun name => [TokenKind.name name]).intersperse [.mark .ampersand]).flatten

/-- Interfaces are cut into their tokens. -/
theorem piece_writeInterfaces {interfaces : List Text}
    (areNames : ∀ name ∈ interfaces, IsName name) :
    Piece (writeInterfaces interfaces) (interfacesKinds interfaces) ∧
      Apart (writeInterfaces interfaces) := by
  unfold writeInterfaces interfacesKinds
  by_cases none : interfaces = []
  · subst none
    exact ⟨ClosedPiece.nil.piece, .nil⟩
  · have some : interfaces.isEmpty = false := by simpa using none
    rw [if_neg none, some]
    have blank : ClosedPiece " " [] := ClosedPiece.ignored (by decide)
    have word : ClosedPiece " implements " [.name "implements"] :=
      blank.append (ClosedPiece.word (by decide : IsName "implements"))
    have separator : ClosedPiece " & " [.mark .ampersand] :=
      (blank.append (ClosedPiece.mark .ampersand)).append blank
    have pieces : List.Forall₂ (fun name text => Piece text [.name name]) interfaces interfaces :=
      List.forall₂_same.mpr fun name mem => Piece.name (areNames name mem)
    exact ⟨word.before (Piece.join separator rfl pieces), .of_endsToken rfl⟩

/-- Interfaces are read as they were written, if neither another one nor the word follows. -/
theorem reads_interfaces (interfaces : List Text) {behind : List TokenKind}
    (noWord : ∀ kind ∈ behind.head?, kind ≠ .name "implements")
    (noMark : ∀ kind ∈ behind.head?, kind ≠ .mark .ampersand) :
    Reads Reader.implementedInterfaces (interfacesKinds interfaces) behind
      fun read => read = interfaces := by
  unfold interfacesKinds
  by_cases none : interfaces = []
  · subst none
    rw [if_pos rfl]
    refine Reads.bindNone (Reads.acceptKeywordNone noWord) fun taken isTaken => ?_
    rw [isTaken]
    exact Reads.pure rfl
  · rw [if_neg none]
    refine Reads.bindCons (Reads.acceptKeyword _) fun taken isTaken => ?_
    rw [isTaken]
    exact reads_separatedNames none noMark

/-- The tokens of parts between braces, if there are any. -/
def blockKinds {ι : Type} (kinds : ι → List TokenKind) (parts : List ι) : List TokenKind :=
  if parts = [] then [] else .mark .openBrace :: (parts.flatMap kinds ++ [.mark .closeBrace])

/-- Parts between braces are cut into their tokens. -/
theorem piece_writeBlock {ι : Type} {kinds : ι → List TokenKind} {parts : List ι}
    {texts : List Text}
    (pieces : List.Forall₂ (fun part text => Piece text (kinds part)) parts texts) :
    ClosedPiece (writeBlock texts) (blockKinds kinds parts) ∧ Apart (writeBlock texts) := by
  unfold writeBlock blockKinds
  cases pieces with
  | nil => exact ⟨ClosedPiece.nil, .nil⟩
  | cons first others =>
      have blank : ClosedPiece " " [] := ClosedPiece.ignored (by decide)
      have opening : ClosedPiece " \x7b\n" [.mark .openBrace] :=
        (blank.append (ClosedPiece.mark .openBrace)).append ClosedPiece.feed
      have closing : ClosedPiece "\n\x7d" [.mark .closeBrace] :=
        ClosedPiece.feed.append (ClosedPiece.mark .closeBrace)
      have inside := opening.before (Piece.joinLines (.cons first others))
      exact ⟨inside.closed closing rfl, .of_endsToken rfl⟩

/-- In front of what stands behind there is at most the first token of something optional. -/
theorem head_optional {isNone : Prop} [Decidable isNone] {first : TokenKind}
    {others behind : List TokenKind} {holds : TokenKind → Prop} (atFirst : holds first)
    (atBehind : ∀ kind ∈ behind.head?, holds kind) :
    ∀ kind ∈ ((if isNone then [] else first :: others) ++ behind).head?, holds kind := by
  split
  · exact atBehind
  · rintro kind ⟨⟩
    exact atFirst

/-- What the body of a type applies to the type. -/
def bodyApplied : Body → Option Application
  | .scalar specifiedBy => specifiedBy.map fun address => ⟨"specifiedBy", some ("url", address)⟩
  | .inputObject _ oneOf => if oneOf.isFalsy then none else some ⟨"oneOf", none⟩
  | _ => none

/-- The word that the definition of a type begins with. -/
def keyword : TypeKind → Text
  | .scalar => "scalar"
  | .object => "type"
  | .interface => "interface"
  | .union => "union"
  | .enum => "enum"
  | .inputObject => "input"

/-- The tokens of the members of a union, if there are any. -/
def membersKinds (members : List Text) : List TokenKind :=
  if members = [] then []
  else .mark .equals ::
    ((members.map fun name => [TokenKind.name name]).intersperse [.mark .bar]).flatten

/-- The tokens of a type behind its name. -/
def partsKinds (schema : Schema) : Body → List TokenKind
  | .scalar specifiedBy => appliedKinds (bodyApplied (.scalar specifiedBy))
  | .object interfaces fields | .interface interfaces fields =>
    interfacesKinds interfaces ++ blockKinds schema.fieldKinds fields
  | .union members => membersKinds members
  | .enum values => blockKinds enumValueKinds values
  | .inputObject fields oneOf =>
    appliedKinds (bodyApplied (.inputObject fields oneOf)) ++
      blockKinds (fun field => schema.inputKinds field.description field) fields

/-- The tokens of a type. -/
def typeKinds (schema : Schema) (type : NamedType) : List TokenKind :=
  descriptionKinds type.description ++
    (.name (keyword type.kind) :: .name type.name :: schema.partsKinds type.body)

/-- A body of a type that is read again where it is written. -/
def ReadableBody (schema : Schema) : Body → Prop
  | .scalar _ => True
  | .object interfaces fields | .interface interfaces fields =>
    (∀ name ∈ interfaces, IsName name) ∧ ∀ field ∈ fields, schema.ReadableField field
  | .union members => ∀ name ∈ members, IsName name
  | .enum values => ∀ value ∈ values, IsName value.name
  | .inputObject fields _ => ∀ field ∈ fields, schema.ReadableInput field

/-- What the body of a definition says that was read where the body of a type was written. -/
inductive BodyTells (schema : Schema) : Body → TypeBody → Prop where
  | scalar (specifiedBy : Option Text) : BodyTells schema (.scalar specifiedBy) .scalar
  | object (interfaces : List Text) {fields : List Field} {read : List FieldDefinition}
      (all : List.Forall₂ schema.FieldTells fields read) :
      BodyTells schema (.object interfaces fields) (.object interfaces read)
  | interface (interfaces : List Text) {fields : List Field} {read : List FieldDefinition}
      (all : List.Forall₂ schema.FieldTells fields read) :
      BodyTells schema (.interface interfaces fields) (.interface interfaces read)
  | union (members : List Text) : BodyTells schema (.union members) (.union members)
  | enum {values : List EnumValue} {read : List EnumValueDefinition}
      (all : List.Forall₂ EnumValueTells values read) :
      BodyTells schema (.enum values) (.enum read)
  | inputObject {fields : List InputValue} {read : List InputValueDefinition} (oneOf : Json)
      (all : List.Forall₂ (fun field => schema.InputTells field.description field) fields read) :
      BodyTells schema (.inputObject fields oneOf) (.inputObject read)

/-- A keyword and the name of a type. -/
theorem piece_keyword {word name : Text} (isWord : IsName word) (isName : IsName name) :
    Piece (word ++ " " ++ name) [.name word, .name name] :=
  (ClosedPiece.word isWord).before (Piece.name isName)

/-- The directive that is applied to a type for what it holds can be read. -/
theorem isReadable_bodyApplied (body : Body) :
    ∀ application ∈ bodyApplied body, application.IsReadable := by
  intro application mem
  cases body with
  | scalar specifiedBy =>
      obtain ⟨address, -, rfl⟩ := Option.map_eq_some_iff.mp mem
      refine ⟨(by decide : IsName "specifiedBy"), ?_⟩
      rintro argument ⟨⟩
      exact (by decide : IsName "url")
  | inputObject fields oneOf =>
      simp only [bodyApplied, Option.mem_def] at mem
      split at mem
      · cases mem
      · cases mem
        exact ⟨(by decide : IsName "oneOf"), nofun⟩
  | _ => cases mem

/-- Members are cut into their tokens. -/
theorem piece_members {members : List Text} (areNames : ∀ name ∈ members, IsName name) :
    let written : Text := if members.isEmpty then [] else " = " ++ Text.join " | " members
    Piece written (membersKinds members) ∧ Apart written := by
  unfold membersKinds
  by_cases none : members = []
  · subst none
    exact ⟨ClosedPiece.nil.piece, .nil⟩
  · have some : members.isEmpty = false := by simpa using none
    rw [if_neg none, some]
    have blank : ClosedPiece " " [] := ClosedPiece.ignored (by decide)
    have equals : ClosedPiece " = " [.mark .equals] :=
      (blank.append (ClosedPiece.mark .equals)).append blank
    have separator : ClosedPiece " | " [.mark .bar] :=
      (blank.append (ClosedPiece.mark .bar)).append blank
    have pieces : List.Forall₂ (fun name text => Piece text [.name name]) members members :=
      List.forall₂_same.mpr fun name mem => Piece.name (areNames name mem)
    exact ⟨equals.before (Piece.join separator rfl pieces), .of_endsToken rfl⟩

/-- Members are read as they were written, if neither another one nor the mark follows. -/
theorem reads_members (members : List Text) {behind : List TokenKind}
    (noEquals : ∀ kind ∈ behind.head?, kind ≠ .mark .equals)
    (noBar : ∀ kind ∈ behind.head?, kind ≠ .mark .bar) :
    Reads Reader.unionMembers (membersKinds members) behind fun read => read = members := by
  unfold membersKinds
  by_cases none : members = []
  · subst none
    rw [if_pos rfl]
    refine Reads.bindNone (Reads.acceptNone noEquals) fun taken isTaken => ?_
    rw [isTaken]
    exact Reads.pure rfl
  · rw [if_neg none]
    refine Reads.bindCons (Reads.accept _) fun taken isTaken => ?_
    rw [isTaken]
    exact reads_separatedNames none noBar

/-- An object or an interface is cut into its tokens. -/
theorem piece_composite {word name : Text} (isWord : IsName word) (isName : IsName name)
    {interfaces : List Text} (areNames : ∀ name ∈ interfaces, IsName name) {fields : List Field}
    (readable : ∀ field ∈ fields, schema.ReadableField field) {texts : List Text}
    (written : writeParts schema.writeField fields = .ok texts) :
    Piece (word ++ " " ++ name ++ writeInterfaces interfaces ++ writeBlock texts)
      ([.name word, .name name] ++
        (interfacesKinds interfaces ++ blockKinds schema.fieldKinds fields)) := by
  obtain ⟨interfacesPiece, apart⟩ := piece_writeInterfaces areNames
  have pieces : List.Forall₂ (fun field text => Piece text (schema.fieldKinds field)) fields
      texts := by
    refine Outcome.forall₂_imp_of_mem (forall₂_of_writeParts written) readable ?_
    rintro field text readable ⟨isFirst, written⟩
    exact piece_writeField readable written
  obtain ⟨fieldsPiece, apartFields⟩ := piece_writeBlock pieces
  rw [← List.append_assoc [_, _]]
  exact ((piece_keyword isWord isName).append apart interfacesPiece).append apartFields
    fieldsPiece.piece

/-- The body of a type is cut into its tokens. -/
theorem piece_writeBody {type : NamedType} (isName : IsName type.name)
    (readable : schema.ReadableBody type.body) {text : Text}
    (written : schema.writeBody type = .ok text) :
    Piece text (.name (keyword type.kind) :: .name type.name :: schema.partsKinds type.body) := by
  have named : ∀ word : Text, IsName word →
      Piece (word ++ " " ++ type.name) [.name word, .name type.name] :=
    fun word isWord => piece_keyword isWord isName
  have applied := piece_writeApplied (isReadable_bodyApplied type.body)
  unfold writeBody at written
  rw [NamedType.kind]
  cases isBody : type.body with
  | scalar specifiedBy =>
      rw [isBody] at written applied
      cases written
      have whole := (named "scalar" (by decide)).append (apart_writeApplied _) applied
      cases specifiedBy <;> exact whole
  | object interfaces fields =>
      rw [isBody] at written readable
      obtain ⟨texts, areTexts, isText⟩ := bind_eq_ok_iff.mp written
      cases isText
      exact piece_composite (by decide : IsName "type") isName readable.1 readable.2 areTexts
  | interface interfaces fields =>
      rw [isBody] at written readable
      obtain ⟨texts, areTexts, isText⟩ := bind_eq_ok_iff.mp written
      cases isText
      exact piece_composite (by decide : IsName "interface") isName readable.1 readable.2 areTexts
  | union members =>
      rw [isBody] at written readable
      cases written
      obtain ⟨membersPiece, apart⟩ := piece_members readable
      exact (named "union" (by decide)).append apart membersPiece
  | enum values =>
      rw [isBody] at written readable
      obtain ⟨texts, areTexts, isText⟩ := bind_eq_ok_iff.mp written
      cases isText
      have pieces : List.Forall₂ (fun value text => Piece text (enumValueKinds value)) values
          texts := by
        refine Outcome.forall₂_imp_of_mem (forall₂_of_writeParts areTexts) readable ?_
        rintro value text isName ⟨isFirst, written⟩
        cases written
        exact piece_writeEnumValue isFirst isName
      obtain ⟨valuesPiece, apart⟩ := piece_writeBlock pieces
      exact (named "enum" (by decide)).append apart valuesPiece.piece
  | inputObject fields oneOf =>
      rw [isBody] at written readable applied
      obtain ⟨texts, areTexts, isText⟩ := bind_eq_ok_iff.mp written
      cases isText
      have pieces : List.Forall₂ (fun field text =>
          Piece text (schema.inputKinds field.description field)) fields texts := by
        refine Outcome.forall₂_imp_of_mem (forall₂_of_writeParts areTexts) readable ?_
        rintro field text readable ⟨isFirst, written⟩
        exact piece_writeInputLine isIndentation_inside readable written
      obtain ⟨fieldsPiece, apart⟩ := piece_writeBlock pieces
      have mark : (if oneOf.isFalsy then [] else Text.ofString " @oneOf") =
          writeApplied (bodyApplied (.inputObject fields oneOf)) := by
        cases falsy : oneOf.isFalsy <;> simp only [bodyApplied, falsy] <;> rfl
      rw [mark]
      have whole := ((named "input" (by decide)).append (apart_writeApplied _) applied).append
        apart fieldsPiece.piece
      rw [List.append_assoc [_, _]] at whole
      exact whole

/-- A type is cut into its tokens. -/
theorem piece_writeType {type : NamedType} (isName : IsName type.name)
    (readable : schema.ReadableBody type.body) {text : Text}
    (written : schema.writeType type = .ok text) : Piece text (schema.typeKinds type) := by
  obtain ⟨body, isBody, isText⟩ := bind_eq_ok_iff.mp written
  cases isText
  have noIndentation : IsIndentation [] := nofun
  exact (closedPiece_description noIndentation type.description true).before
    (piece_writeBody isName readable isBody)

/-- What the definition of a type says that was read where a type was written. -/
structure TypeTells (schema : Schema) (type : NamedType) (read : TypeDefinition) : Prop where
  description : read.description = type.description
  name : read.name = type.name
  applied : List.Forall₂ Application.Holds (bodyApplied type.body).toList read.directives
  body : BodyTells schema type.body read.body

/-- What stands behind a type that has no more parts. -/
theorem reads_nothingApplied {behind : List TokenKind}
    (noDirective : ∀ kind ∈ behind.head?, kind ≠ .mark .at)
    (noArgument : ∀ kind ∈ behind.head?, kind ≠ .mark .openParenthesis) :
    Reads (Reader.directives true) [] behind fun read => read = [] :=
  (reads_applied none noDirective noArgument).weaken fun _ all => by
    cases all
    rfl

/-- The interfaces and the fields of a type are read as they were written. -/
theorem reads_composite {α : Type} (interfaces : List Text) {fields : List Field}
    (readable : ∀ field ∈ fields, schema.ReadableField field)
    {behind : List TokenKind} (opens : OpensBehind behind)
    {result : List Text → List Document.Directive → List FieldDefinition → α} {property : α → Prop}
    (holds : ∀ read, List.Forall₂ schema.FieldTells fields read →
      property (result interfaces [] read)) :
    Reads
      (do
        let interfaces ← Reader.implementedInterfaces
        let applied ← Reader.directives true
        return result interfaces applied (← Reader.fieldDefinitions))
      (interfacesKinds interfaces ++ blockKinds schema.fieldKinds fields) behind property := by
  have inBlock : ∀ kind : TokenKind, kind ≠ .mark .openBrace →
      (∀ found ∈ behind.head?, found ≠ kind) →
      ∀ found ∈ (blockKinds schema.fieldKinds fields ++ behind).head?, found ≠ kind :=
    fun kind differ absent => head_optional (Ne.symm differ) absent
  refine Reads.bind (reads_interfaces interfaces
    (inBlock _ nofun (opens.noWord (by decide))) (inBlock _ nofun (opens.noMark _)))
    fun read isRead => ?_
  refine Reads.bindNone (reads_nothingApplied (inBlock _ nofun (opens.noMark _))
    (inBlock _ nofun (opens.noMark _))) fun directives isNone => ?_
  refine (Reads.optionalMany (fun field mem => isPart_field (readable field mem)) (by simp [Quiet])
    .openBrace fun _ => opens.noMark _).map fun fields all => ?_
  rw [isRead, isNone]
  exact holds fields all

/-- What follows the keyword of a type is read as it was written. -/
theorem reads_typeParts {type : NamedType} (readable : schema.ReadableBody type.body)
    {behind : List TokenKind} (opens : OpensBehind behind) :
    Reads (Reader.typeParts type.kind type.description)
      (.name type.name :: schema.partsKinds type.body) behind (schema.TypeTells type) := by
  refine Reads.bindCons (Reads.name type.name) fun name isName => ?_
  rw [NamedType.kind]
  obtain ⟨typeName, description, body⟩ := type
  cases body with
  | scalar specifiedBy =>
      refine (reads_applied _ (opens.noMark _) (opens.noMark _)).map ?_
      exact fun directives all => ⟨rfl, isName, all, .scalar specifiedBy⟩
  | object interfaces fields =>
      exact reads_composite interfaces readable.2 opens fun read all =>
        ⟨rfl, isName, .nil, .object interfaces all⟩
  | interface interfaces fields =>
      exact reads_composite interfaces readable.2 opens fun read all =>
        ⟨rfl, isName, .nil, .interface interfaces all⟩
  | union members =>
      refine Reads.bindNone (reads_nothingApplied
        (head_optional nofun (opens.noMark _)) (head_optional nofun (opens.noMark _)))
        fun directives isNone => ?_
      refine (reads_members members (opens.noMark _) (opens.noMark _)).map fun read isRead => ?_
      rw [isNone, isRead]
      exact ⟨rfl, isName, .nil, .union members⟩
  | enum values =>
      refine Reads.bindNone (reads_nothingApplied
        (head_optional nofun (opens.noMark _)) (head_optional nofun (opens.noMark _)))
        fun directives isNone => ?_
      refine (Reads.optionalMany (fun value _ => isPart_enumValue value) (by simp [Quiet])
        .openBrace fun _ => opens.noMark _).map fun values all => ?_
      rw [isNone]
      exact ⟨rfl, isName, .nil, .enum all⟩
  | inputObject fields oneOf =>
      refine Reads.bind (reads_applied _
        (head_optional nofun (opens.noMark _)) (head_optional nofun (opens.noMark _)))
        fun directives applied => ?_
      refine (Reads.optionalMany (fun field mem => isPart_input (readable field mem) _ _)
        (by simp [Quiet]) .openBrace fun _ => opens.noMark _).map fun fields all => ?_
      exact ⟨rfl, isName, applied, .inputObject oneOf all⟩

end Schema

end SchemaOrder
