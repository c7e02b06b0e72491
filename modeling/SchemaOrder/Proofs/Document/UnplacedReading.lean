import SchemaOrder.Proofs.Document.Applications
import SchemaOrder.Proofs.Document.UnifiedTokens
import SchemaOrder.Proofs.Document.Unplaced

/-!
# Reading documents with the same tokens

Every reader of a part of a document reads the same of tokens without places, but for the places.
What a document is therefore depends on what kinds of tokens it consists of, and so neither on how
its lines end: `parse_unifyLineEnds` reads the same from a text and from the text with line feeds.
-/

namespace SchemaOrder.Document

open Outcome (Matches)

namespace Unplaces

/-- A reference is read without regard to places. -/
theorem typeReferenceWith (fuel : Nat) : Placeless id (Reader.typeReferenceWith fuel) := by
  induction fuel with
  | zero => exact unexpected
  | succ fuel inductionHypothesis =>
      have refusal : ∀ inner : TypeReference, Placeless id inner.refusal :=
        fun inner => (accept .bang).bind fun _ => ite (pure rfl) (pure rfl)
      refine (accept .openBracket).bind fun taken => ite ?_ ?_
      · have item : Placeless id
            (do
              let item ← Reader.typeReferenceWith fuel
              Reader.expect .closeBracket
              Pure.pure item) :=
          inductionHypothesis.bind fun item => (expect .closeBracket).bind fun _ => pure rfl
        exact item.nested.bind fun item => refusal (.list item)
      · exact name.bind fun name => refusal (.named name)

/-- So it is with fuel for the whole document. -/
theorem typeReference : Placeless id Reader.typeReference :=
  bound.bind fun fuel => typeReferenceWith fuel

/-- The name of a variable is read without regard to places. -/
theorem variableName : Placeless id Reader.variableName :=
  (expect .dollar).bind fun _ => name

/-- A literal is read without regard to places, its own place not being part of it. -/
theorem literalWith (fuel : Nat) (isConstant : Bool) :
    Placeless id (Reader.literalWith fuel isConstant) := by
  induction fuel with
  | zero => exact unexpected
  | succ fuel inductionHypothesis =>
      have field : Placeless id
          (do
            let fieldName ← Reader.name
            Reader.expect .colon
            return (fieldName, ← Reader.literalWith fuel isConstant)) :=
        name.bind fun _ => (expect .colon).bind fun _ => inductionHypothesis.map fun _ => rfl
      refine current.bind fun ⟨kind, _⟩ => ?_
      cases kind with
      | integer digits => exact advance.bind fun _ => pure rfl
      | float digits => exact advance.bind fun _ => pure rfl
      | text content => exact advance.bind fun _ => pure rfl
      | block content => exact advance.bind fun _ => pure rfl
      | name word => exact advance.bind fun _ => pure rfl
      | endOfDocument => exact unexpected
      | mark sign =>
          cases sign with
          | openBracket =>
              exact (inductionHypothesis.any .openBracket .closeBracket).nested.map
                fun _ => congrArg Literal.list (List.map_id _).symm
          | openBrace =>
              exact (field.any .openBrace .closeBrace).nested.map
                fun _ => congrArg Literal.object (List.map_id _).symm
          | dollar =>
              refine ite ?_ (variableName.map fun _ => rfl)
              refine advance.bind fun _ => current.bind fun ⟨kind, _⟩ => ?_
              cases kind <;> exact failAt _ _ _ _
          | _ => exact unexpected

/-- So it is with fuel for the whole document. -/
theorem literal (isConstant : Bool) : Placeless id (Reader.literal isConstant) :=
  bound.bind fun fuel => literalWith fuel isConstant

/-- An argument is read the same but for the place of its value. -/
theorem argument (isConstant : Bool) : Placeless Argument.unplaced (Reader.argument isConstant) :=
  name.bind fun _ => (expect .colon).bind fun _ => current.bind fun _ =>
    (literal isConstant).map fun _ => rfl

/-- So are the arguments in parentheses. -/
theorem arguments (isConstant : Bool) :
    Placeless (List.map Argument.unplaced) (Reader.arguments isConstant) :=
  (argument isConstant).optionalMany .openParenthesis .closeParenthesis

/-- A directive that is applied is read the same but for its place and those of its arguments. -/
theorem directive (isConstant : Bool) :
    Placeless Directive.unplaced (Reader.directive isConstant) :=
  current.bind fun _ => (expect .at).bind fun _ => name.bind fun _ =>
    (arguments isConstant).map fun _ => rfl

/-- So are several directives. -/
theorem directives (isConstant : Bool) :
    Placeless (List.map Directive.unplaced) (Reader.directives isConstant) :=
  bound.bind fun fuel => (directive isConstant).whilePeek .at fuel []

/-- A description is read without regard to places. -/
theorem description : Placeless id Reader.description :=
  current.bind fun ⟨kind, _⟩ => by
    cases kind with
    | text content => exact advance.bind fun _ => pure rfl
    | block content => exact advance.bind fun _ => pure rfl
    | _ => exact pure rfl

/-- The word for an operation is read without regard to places. -/
theorem operationType : Placeless id Reader.operationType :=
  current.bind fun _ => name.bind fun word => by
    cases found : [Operation.query, .mutation, .subscription].find? fun operation =>
        operation.word = word with
    | none =>
        simp only [id, found]
        exact failAt _ _ _ _
    | some operation =>
        simp only [id, found]
        exact pure rfl

/-- A default is read without regard to places. -/
theorem defaultValue : Placeless id Reader.defaultValue :=
  (accept .equals).bind fun _ => ite ((literal true).map fun _ => rfl) (pure rfl)

/-! ### Operations and fragments -/

/-- A variable of an operation is read the same but for the places of its directives. -/
theorem variableDefinition : Placeless VariableDefinition.unplaced Reader.variableDefinition :=
  description.bind fun _ => variableName.bind fun _ => (expect .colon).bind fun _ =>
    typeReference.bind fun _ => defaultValue.bind fun _ => (directives true).map fun _ => rfl

/-- The name of a fragment is read without regard to places. -/
theorem fragmentName : Placeless id Reader.fragmentName :=
  current.bind fun _ => ite unexpected name

/-- What an operation selects is read the same but for the places of directives and arguments. -/
theorem selectionWith (fuel : Nat) : Placeless Selection.unplaced (Reader.selectionWith fuel) := by
  induction fuel with
  | zero => exact unexpected
  | succ fuel inductionHypothesis =>
      have inner := (inductionHypothesis.many .openBrace .closeBrace).nested
      refine (accept .spread).bind fun taken => ite ?_ ?_
      · refine (acceptKeyword "on").bind fun isConditional => current.bind fun ⟨kind, _⟩ => ?_
        have inline : ∀ condition : Option Text, Placeless Selection.unplaced
            (do
              let applied ← Reader.directives false
              return Selection.inline condition applied (← Reader.nested
                (Reader.many .openBrace (Reader.selectionWith fuel) .closeBrace))) :=
          fun condition => (directives false).bind fun applied => inner.map fun selections => by
            rw [Selection.unplaced, Selection.allUnplaced_eq_map]
        cases isConditional with
        | true => exact ite (name.bind fun _ => inline _) (inline none)
        | false =>
            cases kind with
            | name _ => exact fragmentName.bind fun _ => (directives false).map fun _ => rfl
            | _ => exact ite (name.bind fun _ => inline _) (inline none)
      · have rest : ∀ names : Option Text × Text, Placeless Selection.unplaced
            (do
              let given ← Reader.arguments false
              let applied ← Reader.directives false
              let selections ←
                if ← Reader.peek .openBrace then
                  Reader.nested (Reader.many .openBrace (Reader.selectionWith fuel) .closeBrace)
                else Pure.pure []
              return Selection.field names.1 names.2 given applied selections) :=
          fun names => (arguments false).bind fun _ => (directives false).bind fun _ =>
            (peek .openBrace).bind fun _ => ite
              (inner.bind fun _ => pure (by rw [Selection.unplaced, Selection.allUnplaced_eq_map]))
              (pure rfl)
        exact name.bind fun first => (accept .colon).bind fun _ =>
          ite (name.bind fun _ => rest (some first, _)) (rest (none, first))

/-- So is all that it selects in braces. -/
theorem selections : Placeless (List.map Selection.unplaced) Reader.selections :=
  bound.bind fun fuel => ((selectionWith fuel).many .openBrace .closeBrace).nested

/-- An operation is read the same but for places. -/
theorem operation : Placeless Definition.unplaced Reader.operation := by
  refine (peek .openBrace).bind fun here => ite (selections.map fun _ => rfl) ?_
  have rest : ∀ kind, Placeless Definition.unplaced
      (do
        let definitions ←
          Reader.optionalMany .openParenthesis Reader.variableDefinition .closeParenthesis
        let applied ← Reader.directives false
        return Definition.operation kind definitions applied (← Reader.selections)) :=
    fun kind => (variableDefinition.optionalMany .openParenthesis .closeParenthesis).bind
      fun _ => (directives false).bind fun _ => selections.map fun _ => rfl
  refine description.bind fun _ => operationType.bind fun kind => current.bind fun ⟨token, _⟩ => ?_
  cases token with
  | name word => exact name.bind fun _ => rest kind
  | _ => exact rest kind

/-- A fragment is read the same but for places. -/
theorem fragment : Placeless Definition.unplaced Reader.fragment :=
  description.bind fun _ => (expectKeyword "fragment").bind fun _ =>
    fragmentName.bind fun _ => (expectKeyword "on").bind fun _ => name.bind fun _ =>
      (directives false).bind fun _ => selections.map fun _ => rfl

/-! ### Definitions -/

/-- An operation and the type that serves it are read without regard to places. -/
theorem operationTypeDefinition : Placeless id Reader.operationTypeDefinition :=
  operationType.bind fun _ => (expect .colon).bind fun _ => name.map fun _ => rfl

/-- The definition of an argument or an input field is read the same but for the places of its
directives. -/
theorem inputValue : Placeless InputValueDefinition.unplaced Reader.inputValue :=
  description.bind fun _ => name.bind fun _ => (expect .colon).bind fun _ =>
    typeReference.bind fun _ => defaultValue.bind fun _ => (directives true).map fun _ => rfl

/-- So are the definitions in parentheses. -/
theorem argumentDefinitions :
    Placeless (List.map InputValueDefinition.unplaced) Reader.argumentDefinitions :=
  inputValue.optionalMany .openParenthesis .closeParenthesis

/-- The definition of a field is read the same but for the places of directives. -/
theorem fieldDefinition : Placeless FieldDefinition.unplaced Reader.fieldDefinition :=
  description.bind fun _ => name.bind fun _ => argumentDefinitions.bind fun _ =>
    (expect .colon).bind fun _ => typeReference.bind fun _ => (directives true).map fun _ => rfl

/-- So are the definitions in braces. -/
theorem fieldDefinitions : Placeless (List.map FieldDefinition.unplaced) Reader.fieldDefinitions :=
  fieldDefinition.optionalMany .openBrace .closeBrace

/-- The names of interfaces are read without regard to places. -/
theorem implementedInterfaces : Placeless id Reader.implementedInterfaces :=
  (acceptKeyword "implements").bind fun _ =>
    ite ((name.separated .ampersand).of_eq List.map_id) (pure rfl)

/-- The names of members are read without regard to places. -/
theorem unionMembers : Placeless id Reader.unionMembers :=
  (accept .equals).bind fun _ => ite ((name.separated .bar).of_eq List.map_id) (pure rfl)

/-- The name of a value of an enum is read without regard to places. -/
theorem enumValueName : Placeless id Reader.enumValueName :=
  current.bind fun token => by
    dsimp only [Token.kind_unplaced]
    split
    · exact ite (failAt _ _ _ _) name
    · exact name

/-- The definition of a value of an enum is read the same but for the places of its directives. -/
theorem enumValueDefinition : Placeless EnumValueDefinition.unplaced Reader.enumValueDefinition :=
  description.bind fun _ => enumValueName.bind fun _ => (directives true).map fun _ => rfl

/-- The definition of a schema is read the same but for the places of its directives. -/
theorem schemaDefinition : Placeless Definition.unplaced Reader.schemaDefinition :=
  description.bind fun _ => (expectKeyword "schema").bind fun _ => (directives true).bind fun _ =>
    ((operationTypeDefinition.many .openBrace .closeBrace).of_eq List.map_id).map fun _ => rfl

/-- The parts of a type of any kind are read the same but for the places of directives. -/
theorem typeParts (kind : TypeKind) (description : Option Text) :
    Placeless TypeDefinition.unplaced (Reader.typeParts kind description) := by
  refine name.bind fun name => ?_
  cases kind with
  | scalar => exact (directives true).map fun _ => rfl
  | object | interface =>
      exact implementedInterfaces.bind fun _ => (directives true).bind fun _ =>
        fieldDefinitions.map fun _ => rfl
  | union => exact (directives true).bind fun _ => unionMembers.map fun _ => rfl
  | enum =>
      exact (directives true).bind fun _ =>
        (enumValueDefinition.optionalMany .openBrace .closeBrace).map fun _ => rfl
  | inputObject =>
      exact (directives true).bind fun _ =>
        (inputValue.optionalMany .openBrace .closeBrace).map fun _ => rfl

/-- So is the whole definition of the type. -/
theorem typeDefinition (kind : TypeKind) :
    Placeless Definition.unplaced (Reader.typeDefinition kind) :=
  description.bind fun _ => advance.bind fun _ => (typeParts kind _).map fun _ => rfl

/-- A location of a directive is read without regard to places. -/
theorem directiveLocation : Placeless id Reader.directiveLocation :=
  current.bind fun _ => name.bind fun _ => ite (pure rfl) (failAt _ _ _ _)

/-- The definition of a directive is read the same but for the places of directives on its
arguments. -/
theorem directiveDefinition : Placeless Definition.unplaced Reader.directiveDefinition :=
  description.bind fun _ => (expectKeyword "directive").bind fun _ => (expect .at).bind fun _ =>
    name.bind fun _ => argumentDefinitions.bind fun _ => (acceptKeyword "repeatable").bind fun _ =>
      (expectKeyword "on").bind fun _ =>
        ((directiveLocation.separated .bar).of_eq List.map_id).map fun _ => rfl

/-- An extension says nothing with places or without. -/
theorem isEmptyExtension_unplaced (definition : TypeDefinition) :
    Reader.isEmptyExtension definition.unplaced = Reader.isEmptyExtension definition := by
  obtain ⟨description, name, directives, body⟩ := definition
  cases body <;>
    simp [Reader.isEmptyExtension, TypeDefinition.unplaced, TypeBody.unplaced]

/-- An extension is read the same but for the places of directives. -/
theorem extension : Placeless Definition.unplaced Reader.extension := by
  refine lookAhead.bind fun ⟨kind, _⟩ => ?_
  cases kind with
  | name word =>
      refine ite ?_ ?_
      · refine (expectKeyword "extend").bind fun _ => advance.bind fun _ =>
          (directives true).bind fun applied =>
            ((operationTypeDefinition.optionalMany .openBrace .closeBrace).of_eq List.map_id).bind
              fun operations => ?_
        rw [List.isEmpty_map]
        exact ite unexpected (pure rfl)
      · dsimp only [Token.unplaced]
        split
        · refine (expectKeyword "extend").bind fun _ => advance.bind fun _ =>
            (typeParts _ none).bind fun definition => ?_
          rw [isEmptyExtension_unplaced]
          exact ite unexpected (pure rfl)
        · exact failAt _ _ _ _
  | _ => exact failAt _ _ _ _

/-- Which definition a keyword begins depends on the kinds of the tokens, and not on their places.
-/
theorem keywordDefinition (isDescribed : Bool) (start keyword : Token) (word : Text) :
    Unplaces Definition.unplaced (Reader.keywordDefinition isDescribed start keyword word)
      (Reader.keywordDefinition isDescribed start.unplaced keyword.unplaced word) := by
  refine ite schemaDefinition <| ite directiveDefinition <| ite operation <| ite fragment ?_
  split
  · exact typeDefinition _
  · exact ite (failAt _ _ _ _) (ite extension (failAt _ _ _ _))

/-- A definition behind its description, by the word it begins with. -/
theorem definitionAt (start keyword : Token) : Unplaces Definition.unplaced
    (match keyword.kind with
    | .mark .openBrace => Reader.failAt start.position .descriptionOfShorthand
    | .name word =>
      Reader.keywordDefinition (Reader.isText start.kind) start keyword word
    | other => Reader.failAt keyword.position (.unexpected other))
    (match keyword.unplaced.kind with
    | .mark .openBrace => Reader.failAt start.unplaced.position .descriptionOfShorthand
    | .name word =>
      Reader.keywordDefinition (Reader.isText start.unplaced.kind) start.unplaced keyword.unplaced
        word
    | other => Reader.failAt keyword.unplaced.position (.unexpected other)) := by
  dsimp only [Token.kind_unplaced]
  split
  · exact failAt _ _ _ _
  · exact keywordDefinition _ _ _ _
  · exact failAt _ _ _ _

/-- A definition is read the same but for places. -/
theorem definition : Placeless Definition.unplaced Reader.definition := by
  refine (peek .openBrace).bind fun here => ite operation (current.bind fun start => ?_)
  exact ite (lookAhead.bind fun keyword => definitionAt start keyword) (definitionAt start start)

/-- All definitions of a document are, behind the same known ones. -/
theorem definitions (fuel : Nat) (known : List Definition) :
    Unplaces (List.map Definition.unplaced) (Reader.definitions fuel known)
      (Reader.definitions fuel (known.map Definition.unplaced)) := by
  induction fuel generalizing known with
  | zero => exact unexpected
  | succ fuel inductionHypothesis =>
      refine definition.bind fun next => current.bind fun token => ?_
      exact ite (pure List.map_reverse) (inductionHypothesis (next :: known))

end Unplaces

/-- What a reader has in front of it at the beginning, as readers are applied. -/
def TokenStream.input (stream : TokenStream) (size : Nat) : Input :=
  ⟨stream.tokens.headD ⟨.endOfDocument, size⟩, stream.tokens.drop 1, stream.fault, 0⟩

/-- Without places, only the kinds of the tokens are left. -/
theorem TokenStream.unplaced_input {stream stream' : TokenStream}
    (sameShape : stream.shape = stream'.shape) (size size' : Nat) :
    (stream.input size).unplaced = (stream'.input size').unplaced := by
  obtain ⟨tokens, fault⟩ := stream
  obtain ⟨tokens', fault'⟩ := stream'
  obtain ⟨sameKinds, sameFault⟩ := Prod.mk.inj sameShape
  have unplaced : tokens.map Token.unplaced = tokens'.map Token.unplaced := by
    have ofKind : ∀ tokens : List Token,
        tokens.map Token.unplaced = (tokens.map Token.kind).map (Token.mk · 0) := by
      intro tokens
      rw [List.map_map]
      rfl
    rw [ofKind, ofKind, sameKinds]
  have faults : (fault.map fun _ => ReadFault.mk (.unexpected .endOfDocument) 0) =
      fault'.map fun _ => ⟨.unexpected .endOfDocument, 0⟩ := by
    cases fault <;> cases fault' <;> first | rfl | cases sameFault
  cases tokens <;> cases tokens' <;> simp_all [input, Input.unplaced, Token.unplaced]

/-- What a placeless reader gives of two texts with tokens of the same kinds differs in places
only. -/
theorem Unplaces.readWith_matches {α : Type} {erase : α → α} {reader : Reader α}
    (placeless : Placeless erase reader) {source source' : Text}
    (sameShape : (TokenStream.ofText source).shape = (TokenStream.ofText source').shape) :
    Matches (fun read read' => erase read = erase read') (readWith reader source)
      (readWith reader source') := by
  unfold readWith
  revert sameShape
  generalize TokenStream.ofText source = stream, TokenStream.ofText source' = stream'
  intro sameShape
  have matched := placeless (stream.input source.length)
  have matched' := placeless (stream'.input source'.length)
  rw [← TokenStream.unplaced_input sameShape source.length source'.length] at matched'
  have runs : Matches (fun read read' => erase read = erase read')
      ((reader.run (stream.input source.length)).map (·.1))
      ((reader.run (stream'.input source'.length)).map (·.1)) := by
    refine (matched.trans matched'.symm ?_).map fun _ _ same => same
    rintro first _ second rfl same
    exact congrArg Prod.fst same
  obtain ⟨tokens, fault⟩ := stream
  obtain ⟨tokens', fault'⟩ := stream'
  obtain ⟨sameKinds, sameFault⟩ := Prod.mk.inj sameShape
  cases tokens with
  | nil =>
      obtain rfl : tokens' = [] := List.map_eq_nil_iff.mp sameKinds.symm
      cases fault with
      | none =>
          obtain rfl : fault' = none :=
            Option.not_isSome_iff_eq_none.mp (ne_true_of_eq_false sameFault.symm)
          exact runs
      | some fault =>
          obtain ⟨fault', rfl⟩ := Option.isSome_iff_exists.mp sameFault.symm
          exact .error fault fault'
  | cons token others =>
      obtain ⟨token', others', rfl⟩ : ∃ token' others', tokens' = token' :: others' := by
        cases tokens' with
        | nil => cases sameKinds
        | cons token' others' => exact ⟨token', others', rfl⟩
      exact runs

/-- A text and the text with line feeds are the same document, but for the places. -/
theorem parse_unifyLineEnds (source : Text) :
    Matches (fun document document' =>
        document.map Definition.unplaced = document'.map Definition.unplaced)
      (parse source) (parse (Text.unifyLineEnds source)) :=
  (Unplaces.bound.bind fun fuel => Unplaces.definitions fuel []).readWith_matches
    (shape_ofText_unifyLineEnds source).symm

end SchemaOrder.Document
