import SchemaOrder.Proofs.Document.Applications

/-!
# Parts of definitions that are read again

This module holds what the parts of the definitions of types and directives are cut into where a
schema is written, and what they are read as: arguments and input fields, fields, and values of
enums. A default is read as `Literal.reread` says.
-/

namespace SchemaOrder

open CodePoint (ofChar)
open Document
open Outcome (bind_eq_ok_iff pure_eq_ok_iff map_eq_ok_iff)

namespace Document

/-- What may stand behind a part of a definition: the next part, or what closes the last one. -/
def Quiet : TokenKind → Prop
  | .mark sign => sign ∈ [Mark.closeParenthesis, .closeBracket, .closeBrace]
  | _ => True

/-- A quiet token is no mark but one that closes something. -/
theorem Quiet.ne {kind : TokenKind} (quiet : Quiet kind) {sign : Mark}
    (loud : sign ∉ [Mark.closeParenthesis, .closeBracket, .closeBrace]) : kind ≠ .mark sign := by
  rintro rfl
  exact loud quiet

/-- What stands behind a part is quiet where it begins. -/
def QuietBehind (behind : List TokenKind) : Prop :=
  ∀ kind ∈ behind.head?, Quiet kind

/-- Neither is the one that a part has behind it. -/
theorem QuietBehind.ne {behind : List TokenKind} (quiet : QuietBehind behind) {sign : Mark}
    (loud : sign ∉ [Mark.closeParenthesis, .closeBracket, .closeBrace]) :
    ∀ kind ∈ behind.head?, kind ≠ .mark sign :=
  fun kind mem => (quiet kind mem).ne loud

/-- Something is applied, or nothing is. -/
def writeApplied (applied : Option Application) : Text :=
  (applied.map Application.write).getD []

/-- The tokens of what is applied, if something is. -/
def appliedKinds (applied : Option Application) : List TokenKind :=
  applied.toList.flatMap Application.kinds

/-- In front of what stands behind there is at most the mark of a directive. -/
theorem head_appliedKinds (applied : Option Application) {behind : List TokenKind} {sign : Mark}
    (absent : ∀ kind ∈ behind.head?, kind ≠ .mark sign) (differ : sign ≠ .at) :
    ∀ kind ∈ (appliedKinds applied ++ behind).head?, kind ≠ .mark sign := by
  cases applied with
  | none => exact absent
  | some application =>
      rintro kind ⟨⟩ same
      exact differ (TokenKind.mark.inj same).symm

/-- What is applied stands apart from the text in front of it. -/
theorem apart_writeApplied (applied : Option Application) : Apart (writeApplied applied) := by
  rcases applied with _ | ⟨directive, _ | ⟨name, content⟩⟩
  · exact .nil
  · exact .of_endsToken rfl
  · exact .of_endsToken rfl

/-- What is applied is cut into its tokens, if something is. -/
theorem piece_writeApplied {applied : Option Application}
    (readable : ∀ application ∈ applied, application.IsReadable) :
    Piece (writeApplied applied) (appliedKinds applied) := by
  cases applied with
  | none => exact ClosedPiece.nil.piece
  | some application =>
      rw [appliedKinds, Option.toList_some, List.flatMap_singleton]
      exact Application.piece (readable application rfl)

/-- What is applied is read where neither a directive nor an argument follows. -/
theorem reads_applied (applied : Option Application) {behind : List TokenKind}
    (noDirective : ∀ kind ∈ behind.head?, kind ≠ .mark .at)
    (noArgument : ∀ kind ∈ behind.head?, kind ≠ .mark .openParenthesis) :
    Reads (Reader.directives true) (appliedKinds applied) behind
      (List.Forall₂ Application.Holds applied.toList) := by
  refine Reads.bindNone Reads.bound fun fuel _ => ?_
  refine (Reads.whilePeek (fun application _ behind absent => application.reads absent)
    (fun application _ => ⟨_, rfl⟩) nofun noArgument noDirective fuel []).weaken ?_
  rintro read ⟨values, rfl, all⟩
  exact all

/-- What a deprecation is written as. -/
def deprecationApplied (deprecation : Option Text) : Option Application :=
  deprecation.map fun reason =>
    ⟨"deprecated", if reason = Schema.defaultDeprecation then none else some ("reason", reason)⟩

/-- A deprecation is written as the directive that it is. -/
theorem writeDeprecation_eq (deprecation : Option Text) :
    Schema.writeDeprecation deprecation = writeApplied (deprecationApplied deprecation) := by
  cases deprecation with
  | none => rfl
  | some reason =>
      by_cases isDefault : reason = Schema.defaultDeprecation
      · simp only [Schema.writeDeprecation, deprecationApplied, writeApplied, Option.map_some,
          isDefault, if_true]
        rfl
      · simp only [Schema.writeDeprecation, deprecationApplied, writeApplied, Option.map_some,
          isDefault, if_false]
        rfl

/-- The directive of a deprecation can be read, whatever the reason says. -/
theorem isReadable_deprecation (deprecation : Option Text) :
    ∀ application ∈ deprecationApplied deprecation, application.IsReadable := by
  intro application mem
  obtain ⟨reason, -, rfl⟩ := Option.map_eq_some_iff.mp mem
  refine ⟨⟨rfl, by decide⟩, ?_⟩
  dsimp only
  split
  · exact nofun
  · rintro argument ⟨⟩
    exact ⟨rfl, by decide⟩

/-- The tokens of a default, if there is one. -/
def defaultKinds : Option Literal → List TokenKind
  | none => []
  | some literal => .mark .equals :: literal.kinds

/-- In front of what stands behind there is at most the mark of a default. -/
theorem head_defaultKinds (literal? : Option Literal) {behind : List TokenKind} {sign : Mark}
    (absent : ∀ kind ∈ behind.head?, kind ≠ .mark sign) (differ : sign ≠ .equals) :
    ∀ kind ∈ (defaultKinds literal? ++ behind).head?, kind ≠ .mark sign := by
  cases literal? with
  | none => exact absent
  | some literal =>
      rintro kind ⟨⟩ same
      exact differ (TokenKind.mark.inj same).symm

/-- A default as it is written, if there is one. -/
def writeDefault : Option Literal → Text
  | none => []
  | some literal => " = " ++ literal.write

/-- A default stands apart from the type in front of it. -/
theorem apart_writeDefault (literal? : Option Literal) : Apart (writeDefault literal?) := by
  cases literal? with
  | none => exact .nil
  | some literal => exact .of_endsToken rfl

/-- A default is cut into an equals sign and the tokens of its literal. -/
theorem piece_writeDefault {literal? : Option Literal}
    (readable : ∀ literal ∈ literal?, literal.IsReadable) :
    Piece (writeDefault literal?) (defaultKinds literal?) := by
  cases literal? with
  | none => exact ClosedPiece.nil.piece
  | some literal =>
      have blank : ClosedPiece " " [] := ClosedPiece.ignored (by decide)
      have mark : ClosedPiece " = " [.mark .equals] :=
        (blank.append (ClosedPiece.mark .equals)).append blank
      exact mark.before (readable literal rfl).piece

/-- A default is read where one stands. -/
theorem reads_default {literal? : Option Literal}
    (readable : ∀ literal ∈ literal?, literal.IsReadable) {behind : List TokenKind}
    (absent : ∀ kind ∈ behind.head?, kind ≠ .mark .equals) :
    Reads Reader.defaultValue (defaultKinds literal?) behind
      fun read => read = literal?.map Literal.reread := by
  cases literal? with
  | none =>
      refine Reads.bindNone (Reads.acceptNone absent) fun taken isTaken => ?_
      rw [isTaken]
      exact Reads.pure rfl
  | some literal =>
      refine Reads.bindCons (Reads.accept .equals) fun taken isTaken => ?_
      rw [isTaken]
      refine ((readable literal rfl).reads behind).map ?_
      rintro read rfl
      rfl

end Document

namespace Schema

/-- The literal that is written for the default of an argument or an input field, if one is. -/
def writtenDefault (schema : Schema) (input : InputValue) : Option Literal :=
  match input.default? with
  | none => none
  | some value => (schema.defaultLiteral value input.type).toOption.join

/-- The text of a default is that of its literal. -/
theorem defaultText_eq {schema : Schema} {input : InputValue} {written : Option Text}
    (given : schema.defaultText input = .ok written) :
    written = (schema.writtenDefault input).map Literal.write := by
  unfold defaultText at given
  unfold writtenDefault
  cases isDefault : input.default? with
  | none =>
      rw [isDefault] at given
      cases given
      rfl
  | some value =>
      rw [isDefault] at given
      obtain ⟨literal?, isLiteral, isWritten⟩ := bind_eq_ok_iff.mp given
      cases isWritten
      simp only [isLiteral, Except.toOption, Option.join_some]

/-- An argument or an input field that is read again where it is written. -/
structure ReadableInput (schema : Schema) (input : InputValue) : Prop where
  isName : IsName input.name
  type : input.type.IsReadable
  default : ∀ literal ∈ schema.writtenDefault input, literal.IsReadable

/-- The tokens of an argument or an input field with a description. -/
def inputKinds (schema : Schema) (description : Option Text) (input : InputValue) :
    List TokenKind :=
  descriptionKinds description ++ (.name input.name :: .mark .colon ::
    (input.type.kinds ++ (defaultKinds (schema.writtenDefault input) ++
      appliedKinds (deprecationApplied input.deprecation))))

/-- What the definition of an argument or an input field says that was read where it was written
with a description. -/
structure InputTells (schema : Schema) (description : Option Text) (input : InputValue)
    (read : InputValueDefinition) : Prop where
  description : read.description = description
  name : read.name = input.name
  type : read.type = input.type
  default : read.default? = (schema.writtenDefault input).map Literal.reread
  deprecation : List.Forall₂ Application.Holds (deprecationApplied input.deprecation).toList
    read.directives

variable {schema : Schema}

/-- An argument is written as its name, its type, its default and its deprecation. -/
theorem writeInput_eq {input : InputValue} {text : Text}
    (written : schema.writeInput input = .ok text) :
    text = input.name ++ ": " ++ input.type.text ++ writeDefault (schema.writtenDefault input) ++
      writeApplied (deprecationApplied input.deprecation) := by
  obtain ⟨default?, isDefault, isText⟩ := bind_eq_ok_iff.mp written
  cases isText
  rw [defaultText_eq isDefault, writeDeprecation_eq]
  cases schema.writtenDefault input <;> rfl

/-- An argument or an input field is cut into its tokens. -/
theorem piece_writeInput {input : InputValue} (readable : schema.ReadableInput input) {text : Text}
    (written : schema.writeInput input = .ok text) :
    Piece text (schema.inputKinds none input) := by
  have typed := (ClosedPiece.label readable.isName).before readable.type.piece
  have defaulted := typed.append (apart_writeDefault _) (piece_writeDefault readable.default)
  have whole := defaulted.append (apart_writeApplied _)
    (piece_writeApplied (isReadable_deprecation input.deprecation))
  rw [writeInput_eq written]
  simpa only [inputKinds, descriptionKinds, List.nil_append, List.cons_append, List.append_assoc]
    using whole

/-- The tokens of an argument or an input field are those of its description, and the others. -/
theorem inputKinds_described (description : Option Text) (input : InputValue) :
    schema.inputKinds description input =
      descriptionKinds description ++ schema.inputKinds none input :=
  rfl

/-- An argument or an input field on a line of its own is cut into its tokens. -/
theorem piece_writeInputLine {indentation : Text} (blank : IsIndentation indentation)
    {isFirst : Bool} {input : InputValue} (readable : schema.ReadableInput input) {text : Text}
    (written : schema.writeInputLine indentation isFirst input = .ok text) :
    Piece text (schema.inputKinds input.description input) := by
  obtain ⟨line, isLine, isText⟩ := bind_eq_ok_iff.mp written
  cases isText
  have front := (closedPiece_description blank input.description isFirst).append blank.closedPiece
  rw [List.append_nil] at front
  rw [inputKinds_described]
  exact front.before (piece_writeInput readable isLine)

/-- The first token of something that may be described is a name or a text. -/
theorem descriptionKinds_begin (description : Option Text) (name : Text)
    (others : List TokenKind) : ∃ first rest,
      descriptionKinds description ++ .name name :: others = first :: rest ∧ Quiet first ∧
        ∀ sign, first ≠ .mark sign := by
  cases description with
  | none => exact ⟨_, _, rfl, trivial, nofun⟩
  | some content =>
      refine ⟨_, _, rfl, ?_⟩
      split
      · exact ⟨trivial, nofun⟩
      · exact ⟨trivial, nofun⟩

/-- An argument or an input field is read as it was written. -/
theorem isPart_input {input : InputValue} (readable : schema.ReadableInput input)
    (description : Option Text) (closing : Mark) :
    IsPart Reader.inputValue Quiet closing (schema.inputKinds description input)
      (schema.InputTells description input) := by
  obtain ⟨first, rest, isCons, quiet, noMark⟩ := descriptionKinds_begin description input.name _
  refine ⟨fun behind quietBehind => ?_, first, rest, isCons, quiet, noMark closing⟩
  have quietBehind : QuietBehind behind := quietBehind
  refine Reads.bind (Reads.description description ?_) fun description isDescription => ?_
  · rintro - kind ⟨⟩
    rfl
  refine Reads.bindCons (Reads.name input.name) fun name isName => ?_
  refine Reads.bindCons (Reads.expect .colon) fun _ _ => ?_
  have behindType := head_appliedKinds (deprecationApplied input.deprecation)
    (quietBehind.ne (by decide : Mark.bang ∉ _)) (by decide)
  have behindDefault := head_appliedKinds (deprecationApplied input.deprecation)
    (quietBehind.ne (by decide : Mark.equals ∉ _)) (by decide)
  refine Reads.bind (readable.type.reads ?_) fun type isType => ?_
  · rw [List.append_assoc]
    exact head_defaultKinds _ behindType (by decide)
  refine Reads.bind (reads_default readable.default behindDefault) fun default? isDefault => ?_
  refine (reads_applied _ (quietBehind.ne (by decide)) (quietBehind.ne (by decide))).map ?_
  intro directives all
  exact ⟨isDescription, isName, isType, isDefault, all⟩

/-- The description of an argument where it is read: where no argument of the list has a description
with something in it, none of them is written. -/
def spokenDescription (arguments : List InputValue) (argument : InputValue) : Option Text :=
  if arguments.all fun argument => (argument.description.getD []).isEmpty then none
  else argument.description

/-- The tokens of arguments. -/
def argumentsKinds (schema : Schema) (arguments : List InputValue) : List TokenKind :=
  if arguments = [] then []
  else .mark .openParenthesis ::
    (arguments.flatMap (fun argument =>
      schema.inputKinds (spokenDescription arguments argument) argument) ++
        [.mark .closeParenthesis])

/-- What is computed for the parts of a list, one after the other, is computed for each of them. -/
theorem forall₂_of_writeParts {α : Type} {write : Bool → α → Except DefaultFault Text}
    {parts : List α} {texts : List Text} (written : writeParts write parts = .ok texts) :
    List.Forall₂ (fun part text => ∃ isFirst, write isFirst part = .ok text) parts texts := by
  have all := Outcome.forall₂_of_mapM written
  have each : List.Forall₂ (fun part text => ∃ isFirst, write isFirst part.1 = .ok text)
      parts.zipIdx texts := all.imp fun part text given => ⟨_, given⟩
  have parts' : parts.zipIdx.map Prod.fst = parts := List.zipIdx_map_fst 0 parts
  rw [← parts']
  exact List.forall₂_map_left_iff.mpr each

/-- The indentation of what stands inside a definition. -/
theorem isIndentation_inside : IsIndentation "  " := by
  unfold IsIndentation
  decide

/-- Arguments are cut into their tokens. -/
theorem piece_writeArguments {indentation : Text} (blank : IsIndentation indentation)
    {arguments : List InputValue} (readable : ∀ argument ∈ arguments, schema.ReadableInput argument)
    {text : Text} (written : schema.writeArguments indentation arguments = .ok text) :
    ClosedPiece text (schema.argumentsKinds arguments) ∧ Apart text := by
  have opening : ClosedPiece "(" [.mark .openParenthesis] := ClosedPiece.mark .openParenthesis
  have closing : ClosedPiece ")" [.mark .closeParenthesis] := ClosedPiece.mark .closeParenthesis
  unfold writeArguments at written
  split at written
  · rename_i none
    rw [List.isEmpty_iff] at none
    subst none
    cases written
    exact ⟨ClosedPiece.nil, .nil⟩
  · rename_i some
    rw [List.isEmpty_iff] at some
    unfold argumentsKinds
    rw [if_neg some]
    split at written
    · rename_i undescribed
      obtain ⟨texts, areTexts, isText⟩ := bind_eq_ok_iff.mp written
      cases isText
      have pieces : List.Forall₂ (fun argument text => Piece text
          (schema.inputKinds (spokenDescription arguments argument) argument)) arguments texts := by
        refine Outcome.forall₂_imp_of_mem (Outcome.forall₂_of_mapM areTexts) readable ?_
        intro argument text readable written
        rw [spokenDescription, if_pos undescribed]
        exact piece_writeInput readable written
      have inside := opening.before (Piece.joinComma pieces)
      exact ⟨inside.closed closing rfl, .of_endsToken rfl⟩
    · rename_i described
      obtain ⟨texts, areTexts, isText⟩ := bind_eq_ok_iff.mp written
      cases isText
      have deeper : IsIndentation ("  " ++ indentation) := by
        intro codePoint mem
        rcases List.mem_append.mp mem with inBlanks | inIndentation
        · exact isIndentation_inside codePoint inBlanks
        · exact blank codePoint inIndentation
      have pieces : List.Forall₂ (fun argument text => Piece text
          (schema.inputKinds (spokenDescription arguments argument) argument)) arguments texts := by
        refine Outcome.forall₂_imp_of_mem (forall₂_of_writeParts areTexts) readable ?_
        rintro argument text readable ⟨isFirst, written⟩
        rw [spokenDescription, if_neg described]
        exact piece_writeInputLine deeper readable written
      have lines := (opening.append ClosedPiece.feed).before (Piece.joinLines pieces)
      have ended := lines.closed ClosedPiece.feed rfl
      have whole := (ended.append blank.closedPiece).append closing
      simp only [List.append_nil] at whole
      exact ⟨whole, .of_endsToken rfl⟩

/-- Arguments are read as they were written, if no others follow. -/
theorem reads_arguments {arguments : List InputValue}
    (readable : ∀ argument ∈ arguments, schema.ReadableInput argument) {behind : List TokenKind}
    (absent : ∀ kind ∈ behind.head?, kind ≠ .mark .openParenthesis) :
    Reads Reader.argumentDefinitions (schema.argumentsKinds arguments) behind
      (List.Forall₂ (fun argument =>
        schema.InputTells (spokenDescription arguments argument) argument) arguments) :=
  Reads.optionalMany (fun argument mem => isPart_input (readable argument mem) _ _)
    (by simp [Quiet]) .openParenthesis fun _ => absent

/-- A field that is read again where it is written. -/
structure ReadableField (schema : Schema) (field : Field) : Prop where
  isName : IsName field.name
  type : field.type.IsReadable
  arguments : ∀ argument ∈ field.arguments, schema.ReadableInput argument

/-- The tokens of a field. -/
def fieldKinds (schema : Schema) (field : Field) : List TokenKind :=
  descriptionKinds field.description ++ (.name field.name ::
    (schema.argumentsKinds field.arguments ++ (.mark .colon ::
      (field.type.kinds ++ appliedKinds (deprecationApplied field.deprecation)))))

/-- What the definition of a field says that was read where it was written. -/
structure FieldTells (schema : Schema) (field : Field) (read : FieldDefinition) : Prop where
  description : read.description = field.description
  name : read.name = field.name
  arguments : List.Forall₂ (fun argument =>
    schema.InputTells (spokenDescription field.arguments argument) argument) field.arguments
      read.arguments
  type : read.type = field.type
  deprecation : List.Forall₂ Application.Holds (deprecationApplied field.deprecation).toList
    read.directives

/-- A field is cut into its tokens. -/
theorem piece_writeField {isFirst : Bool} {field : Field} (readable : schema.ReadableField field)
    {text : Text} (written : schema.writeField isFirst field = .ok text) :
    Piece text (schema.fieldKinds field) := by
  obtain ⟨arguments, areArguments, isText⟩ := bind_eq_ok_iff.mp written
  cases isText
  obtain ⟨argumentsPiece, apart⟩ :=
    piece_writeArguments isIndentation_inside readable.arguments areArguments
  have blank : ClosedPiece " " [] := ClosedPiece.ignored (by decide)
  have colon : ClosedPiece ": " [.mark .colon] := (ClosedPiece.mark .colon).append blank
  have front := (closedPiece_description isIndentation_inside field.description isFirst).append
    isIndentation_inside.closedPiece
  have named := front.before (Piece.name readable.isName)
  have given := named.append apart argumentsPiece.piece
  have labelled := given.closed colon rfl
  have typed := labelled.before readable.type.piece
  have whole := typed.append (apart_writeApplied _)
    (piece_writeApplied (isReadable_deprecation field.deprecation))
  rw [writeDeprecation_eq]
  simpa only [fieldKinds, List.append_nil, List.cons_append, List.nil_append, List.append_assoc]
    using whole

/-- A field is read as it was written. -/
theorem isPart_field {field : Field} (readable : schema.ReadableField field) :
    IsPart Reader.fieldDefinition Quiet .closeBrace (schema.fieldKinds field)
      (schema.FieldTells field) := by
  obtain ⟨first, rest, isCons, quiet, noMark⟩ :=
    descriptionKinds_begin field.description field.name _
  refine ⟨fun behind quietBehind => ?_, first, rest, isCons, quiet, noMark _⟩
  have quietBehind : QuietBehind behind := quietBehind
  refine Reads.bind (Reads.description field.description ?_) fun description isDescription => ?_
  · rintro - kind ⟨⟩
    rfl
  refine Reads.bindCons (Reads.name field.name) fun name isName => ?_
  refine Reads.bind (reads_arguments readable.arguments ?_) fun arguments areArguments => ?_
  · rintro kind ⟨⟩
    nofun
  refine Reads.bindCons (Reads.expect .colon) fun _ _ => ?_
  have behindType := head_appliedKinds (deprecationApplied field.deprecation)
    (quietBehind.ne (by decide : Mark.bang ∉ _)) (by decide)
  refine Reads.bind (readable.type.reads behindType) fun type isType => ?_
  refine (reads_applied _ (quietBehind.ne (by decide)) (quietBehind.ne (by decide))).map ?_
  intro directives all
  exact ⟨isDescription, isName, areArguments, isType, all⟩

/-- The tokens of a value of an enum. -/
def enumValueKinds (value : EnumValue) : List TokenKind :=
  descriptionKinds value.description ++
    (.name value.name :: appliedKinds (deprecationApplied value.deprecation))

/-- What the definition of a value of an enum says that was read where it was written. -/
structure EnumValueTells (value : EnumValue) (read : EnumValueDefinition) : Prop where
  description : read.description = value.description
  name : read.name = value.name
  deprecation : List.Forall₂ Application.Holds (deprecationApplied value.deprecation).toList
    read.directives

/-- A value of an enum is cut into its tokens. -/
theorem piece_writeEnumValue (isFirst : Bool) {value : EnumValue} (isName : IsName value.name) :
    Piece (writeEnumValue isFirst value) (enumValueKinds value) := by
  have front := (closedPiece_description isIndentation_inside value.description isFirst).append
    isIndentation_inside.closedPiece
  have whole := (front.before (Piece.name isName)).append (apart_writeApplied _)
    (piece_writeApplied (isReadable_deprecation value.deprecation))
  rw [writeEnumValue, writeDeprecation_eq]
  simpa only [enumValueKinds, List.append_nil, List.cons_append, List.nil_append,
    List.append_assoc] using whole

/-- A value of an enum is read as it was written. -/
theorem isPart_enumValue (value : EnumValue) :
    IsPart Reader.enumValueDefinition Quiet .closeBrace (enumValueKinds value)
      (EnumValueTells value) := by
  obtain ⟨first, rest, isCons, quiet, noMark⟩ :=
    descriptionKinds_begin value.description value.name _
  refine ⟨fun behind quietBehind => ?_, first, rest, isCons, quiet, noMark _⟩
  have quietBehind : QuietBehind behind := quietBehind
  have named : ∀ behind, Reads Reader.enumValueName [.name value.name] behind
      fun read => read = value.name := by
    intro behind
    refine Reads.bindNone Reads.current fun token isKind => ?_
    simp only [isKind, TokenKind.content?]
    split
    · exact Reads.failAt _ _
    · exact Reads.name value.name
  refine Reads.bind (Reads.description value.description ?_) fun description isDescription => ?_
  · rintro - kind ⟨⟩
    rfl
  refine Reads.bindCons (named _) fun name isName => ?_
  refine (reads_applied _ (quietBehind.ne (by decide)) (quietBehind.ne (by decide))).map ?_
  intro directives all
  exact ⟨isDescription, isName, all⟩

end Schema

end SchemaOrder
