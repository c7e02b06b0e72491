import SchemaOrder.Proofs.Document.Yielding

/-!
# Names in documents

Whatever a document that can be read names is named by a name of the schema language: types, fields,
arguments, values of enums, directives and what references lead to. No reference refuses null twice,
no value of an enum in a default is spelled like another literal, and integers are digits.
-/

namespace SchemaOrder.Document

/-- A literal whose values of enums are spelled like none of the other literals, and whose integers
are digits, behind a sign if anything. -/
inductive Literal.IsSpelled : Literal → Prop where
  | variable (name : Text) : IsSpelled (.variable name)
  | integer {digits : Text} (isInteger : IsInteger digits) : IsSpelled (.integer digits)
  | float (digits : Text) : IsSpelled (.float digits)
  | text (content : Text) (isBlock : Bool) : IsSpelled (.text content isBlock)
  | boolean (value : Bool) : IsSpelled (.boolean value)
  | null : IsSpelled .null
  | enumValue {name : Text} (isName : IsName name) (notReserved : name ∉ reservedNames) :
      IsSpelled (.enumValue name)
  | list {items : List Literal} (spelled : ∀ item ∈ items, IsSpelled item) :
      IsSpelled (.list items)
  | object {fields : List (Text × Literal)} (spelled : ∀ field ∈ fields, IsSpelled field.2) :
      IsSpelled (.object fields)

/-- The definition of an argument or an input field whose names are names. -/
structure InputValueDefinition.IsSpelled (definition : InputValueDefinition) : Prop where
  isName : IsName definition.name
  type : definition.type.IsReadable
  default : ∀ literal ∈ definition.default?, literal.IsSpelled

/-- The definition of a field whose names are names. -/
structure FieldDefinition.IsSpelled (definition : FieldDefinition) : Prop where
  isName : IsName definition.name
  arguments : ∀ argument ∈ definition.arguments, argument.IsSpelled
  type : definition.type.IsReadable

/-- A body of a definition whose names are names. -/
def TypeBody.IsSpelled : TypeBody → Prop
  | .scalar => True
  | .object interfaces fields | .interface interfaces fields =>
    (∀ name ∈ interfaces, IsName name) ∧ ∀ field ∈ fields, field.IsSpelled
  | .union members => ∀ name ∈ members, IsName name
  | .enum values => ∀ value ∈ values, IsName value.name
  | .inputObject fields => ∀ field ∈ fields, field.IsSpelled

/-- The definition of a type whose names are names. -/
structure TypeDefinition.IsSpelled (definition : TypeDefinition) : Prop where
  isName : IsName definition.name
  body : definition.body.IsSpelled

/-- The definition of a directive whose names are names. -/
structure DirectiveDefinition.IsSpelled (definition : DirectiveDefinition) : Prop where
  isName : IsName definition.name
  arguments : ∀ argument ∈ definition.arguments, argument.IsSpelled
  locations : ∀ location ∈ definition.locations, IsName location

/-- A definition of something that belongs to a schema, whose names are names. -/
def Definition.IsSpelled : Definition → Prop
  | .schema definition | .schemaExtension definition =>
    ∀ operation ∈ definition.operations, IsName operation.2
  | .type definition | .typeExtension definition => definition.IsSpelled
  | .directive definition => definition.IsSpelled
  | .operation .. | .fragment .. => True

namespace Yields

/-- What is read in front of a refusal of null admits null. -/
theorem refusal {inner : TypeReference} (readable : inner.IsReadable)
    (nullable : inner.isNonNull = false) : Yields inner.refusal TypeReference.IsReadable :=
  (accept .bang).bind fun _ _ =>
    ite (fun _ => pure (.nonNull readable nullable)) fun _ => pure readable

/-- A reference that is read leads to a name and refuses null at most once in every place. -/
theorem typeReferenceWith (fuel : Nat) :
    Yields (Reader.typeReferenceWith fuel) TypeReference.IsReadable := by
  induction fuel with
  | zero => exact unexpected
  | succ fuel inductionHypothesis =>
      refine (accept .openBracket).bind fun taken _ => ite (fun _ => ?_) fun _ => ?_
      · have item := inductionHypothesis.bind fun item readable =>
          (expect .closeBracket).bind fun _ _ => pure readable
        exact item.nested.bind fun item readable => refusal (.list readable) rfl
      · exact name.bind fun name isName => refusal (.named isName) rfl

/-- So does the reference that is read with fuel for the whole document. -/
theorem typeReference : Yields Reader.typeReference TypeReference.IsReadable :=
  bound.bind fun fuel _ => typeReferenceWith fuel

/-- The name of a variable is a name. -/
theorem variableName : Yields Reader.variableName IsName :=
  (expect .dollar).bind fun _ _ => name

/-- A name is a literal that is spelled. -/
theorem isSpelled_wordLiteral {word : Text} (isName : IsName word) :
    (Reader.wordLiteral word).IsSpelled := by
  unfold Reader.wordLiteral
  split
  · exact .boolean true
  · split
    · exact .boolean false
    · split
      · exact .null
      · refine .enumValue isName ?_
        simp only [reservedNames, List.mem_cons, List.not_mem_nil, not_or]
        exact ⟨‹_›, ‹_›, ‹_›, not_false⟩

/-- A literal that is read is spelled as literals are: a value of an enum like no other literal, an
integer in digits. -/
theorem literalWith (fuel : Nat) (isConstant : Bool) :
    Yields (Reader.literalWith fuel isConstant) Literal.IsSpelled := by
  induction fuel with
  | zero => exact unexpected
  | succ fuel inductionHypothesis =>
      refine current.bind fun token isSpelled => ?_
      have field : Yields
          (do
            let fieldName ← Reader.name
            Reader.expect .colon
            return (fieldName, ← Reader.literalWith fuel isConstant))
          (fun field => field.2.IsSpelled) :=
        name.bind fun _ _ => (expect .colon).bind fun _ _ =>
          inductionHypothesis.map fun _ spelled => spelled
      cases isKind : token.kind with
      | integer digits =>
          rw [isKind] at isSpelled
          exact advance.bind fun _ _ => pure (.integer isSpelled)
      | float digits => exact advance.bind fun _ _ => pure (.float digits)
      | text content => exact advance.bind fun _ _ => pure (.text content false)
      | block content => exact advance.bind fun _ _ => pure (.text content true)
      | name word =>
          rw [isKind] at isSpelled
          exact advance.bind fun _ _ => pure (isSpelled_wordLiteral isSpelled)
      | endOfDocument => exact unexpected
      | mark sign =>
          cases sign with
          | openBracket =>
              exact (inductionHypothesis.any .openBracket .closeBracket).nested.map
                fun _ spelled => .list spelled
          | openBrace =>
              exact (field.any .openBrace .closeBrace).nested.map fun _ spelled => .object spelled
          | dollar =>
              refine ite (fun _ => ?_) fun _ => variableName.map fun name _ => .variable name
              refine advance.bind fun _ _ => current.bind fun found _ => ?_
              cases found.kind <;> exact failAt _ _
          | _ => exact unexpected

/-- So is the literal that is read with fuel for the whole document. -/
theorem literal (isConstant : Bool) : Yields (Reader.literal isConstant) Literal.IsSpelled :=
  bound.bind fun fuel _ => literalWith fuel isConstant

/-- An argument leaves tokens that spell names. What it says itself is kept in no schema. -/
theorem argument (isConstant : Bool) : Yields (Reader.argument isConstant) fun _ => True :=
  name.bind fun _ _ => (expect .colon).bind fun _ _ => current.bind fun _ _ =>
    (literal isConstant).map fun _ _ => trivial

/-- So do arguments in parentheses. -/
theorem arguments (isConstant : Bool) : Yields (Reader.arguments isConstant) fun _ => True :=
  ((argument isConstant).optionalMany .openParenthesis .closeParenthesis).weaken fun _ _ => trivial

/-- A directive that is applied leaves tokens that spell names. -/
theorem directive (isConstant : Bool) : Yields (Reader.directive isConstant) fun _ => True :=
  current.bind fun _ _ => (expect .at).bind fun _ _ => name.bind fun _ _ =>
    (arguments isConstant).map fun _ _ => trivial

/-- So do several directives. -/
theorem directives (isConstant : Bool) : Yields (Reader.directives isConstant) fun _ => True :=
  bound.bind fun fuel _ =>
    ((directive isConstant).whilePeek .at fuel (List.forall_mem_nil _)).weaken fun _ _ => trivial

/-- A description, which may be any text, leaves tokens that spell names. -/
theorem description : Yields Reader.description fun _ => True :=
  current.bind fun token _ => by
    cases token.kind with
    | text content => exact advance.bind fun _ _ => pure trivial
    | block content => exact advance.bind fun _ _ => pure trivial
    | _ => exact pure trivial

/-- The word for an operation leaves tokens that spell names. -/
theorem operationType : Yields Reader.operationType fun _ => True :=
  current.bind fun token _ => name.bind fun word _ => by
    split
    · exact pure trivial
    · exact failAt _ _

/-- A default that is read is a literal that is spelled as literals are. -/
theorem defaultValue :
    Yields Reader.defaultValue fun default? => ∀ literal ∈ default?, literal.IsSpelled :=
  (accept .equals).bind fun _ _ => ite
    (fun _ => (literal true).map fun literal spelled => by
      rintro _ ⟨⟩
      exact spelled)
    fun _ => pure nofun

/-! ### Operations and fragments

Nothing is asked of what these readers give; they leave tokens that spell names. -/

/-- A variable of an operation leaves tokens that spell names. -/
theorem variableDefinition : Yields Reader.variableDefinition fun _ => True :=
  description.bind fun _ _ => variableName.bind fun _ _ => (expect .colon).bind fun _ _ =>
    typeReference.bind fun _ _ => defaultValue.bind fun _ _ =>
      (directives true).map fun _ _ => trivial

/-- The name of a fragment is a name. -/
theorem fragmentName : Yields Reader.fragmentName IsName :=
  current.bind fun _ _ => ite (fun _ => unexpected) fun _ => name

/-- What an operation selects leaves tokens that spell names. -/
theorem selectionWith (fuel : Nat) : Yields (Reader.selectionWith fuel) fun _ => True := by
  induction fuel with
  | zero => exact unexpected
  | succ fuel inductionHypothesis =>
      have inner := (inductionHypothesis.many .openBrace .closeBrace).nested
      refine (accept .spread).bind fun taken _ => ite (fun _ => ?_) fun _ => ?_
      · refine (acceptKeyword "on").bind fun isConditional _ => current.bind fun token _ => ?_
        split
        · exact fragmentName.bind fun _ _ => (directives false).map fun _ _ => trivial
        · exact ite
            (fun _ => name.bind fun _ _ => (directives false).bind fun _ _ =>
              inner.map fun _ _ => trivial)
            fun _ => (directives false).bind fun _ _ => inner.map fun _ _ => trivial
      · have rest : ∀ names : Option Text × Text, Yields
            (do
              let given ← Reader.arguments false
              let applied ← Reader.directives false
              let selections ←
                if ← Reader.peek .openBrace then
                  Reader.nested (Reader.many .openBrace (Reader.selectionWith fuel) .closeBrace)
                else Pure.pure []
              return Selection.field names.1 names.2 given applied selections)
            fun _ => True :=
          fun names => (arguments false).bind fun _ _ => (directives false).bind fun _ _ =>
            (peek .openBrace).bind fun _ _ =>
              ite (fun _ => inner.bind fun _ _ => pure trivial) fun _ => pure trivial
        exact name.bind fun first _ => (accept .colon).bind fun _ _ =>
          ite (fun _ => name.bind fun _ _ => rest (some first, _)) fun _ => rest (none, first)

/-- So does all that it selects in braces. -/
theorem selections : Yields Reader.selections fun _ => True :=
  bound.bind fun fuel _ =>
    ((selectionWith fuel).many .openBrace .closeBrace).nested.weaken fun _ _ => trivial

/-- An operation is spelled as definitions are: there is nothing to ask of it. -/
theorem operation : Yields Reader.operation fun read => read.IsSpelled := by
  refine (peek .openBrace).bind fun here _ => ite (fun _ => ?_) fun _ => ?_
  · exact selections.map fun _ _ => trivial
  · have rest : ∀ kind, Yields
        (do
          let definitions ←
            Reader.optionalMany .openParenthesis Reader.variableDefinition .closeParenthesis
          let applied ← Reader.directives false
          return Definition.operation kind definitions applied (← Reader.selections))
        Definition.IsSpelled :=
      fun kind => (variableDefinition.optionalMany .openParenthesis .closeParenthesis).bind
        fun _ _ => (directives false).bind fun _ _ => selections.map fun _ _ => trivial
    refine description.bind fun _ _ => operationType.bind fun kind _ =>
      current.bind fun token _ => ?_
    cases token.kind with
    | name word => exact name.bind fun _ _ => rest kind
    | _ => exact rest kind

/-- So is a fragment. -/
theorem fragment : Yields Reader.fragment fun read => read.IsSpelled :=
  description.bind fun _ _ => (expectKeyword "fragment").bind fun _ _ =>
    fragmentName.bind fun _ _ => (expectKeyword "on").bind fun _ _ => name.bind fun _ _ =>
      (directives false).bind fun _ _ => selections.map fun _ _ => trivial

/-! ### Definitions -/

/-- The type that serves an operation is named by a name. -/
theorem operationTypeDefinition :
    Yields Reader.operationTypeDefinition fun operation => IsName operation.2 :=
  operationType.bind fun _ _ => (expect .colon).bind fun _ _ => name.map fun _ isName => isName

/-- The definition of an argument or an input field that is read has names for names. -/
theorem inputValue : Yields Reader.inputValue InputValueDefinition.IsSpelled :=
  description.bind fun _ _ => name.bind fun _ isName => (expect .colon).bind fun _ _ =>
    typeReference.bind fun _ readable => defaultValue.bind fun _ spelled =>
      (directives true).map fun _ _ => ⟨isName, readable, spelled⟩

/-- So has every argument in parentheses. -/
theorem argumentDefinitions :
    Yields Reader.argumentDefinitions (Each InputValueDefinition.IsSpelled) :=
  inputValue.optionalMany .openParenthesis .closeParenthesis

/-- The definition of a field that is read has names for names. -/
theorem fieldDefinition : Yields Reader.fieldDefinition FieldDefinition.IsSpelled :=
  description.bind fun _ _ => name.bind fun _ isName => argumentDefinitions.bind fun _ arguments =>
    (expect .colon).bind fun _ _ => typeReference.bind fun _ readable =>
      (directives true).map fun _ _ => ⟨isName, arguments, readable⟩

/-- So has every field in braces. -/
theorem fieldDefinitions : Yields Reader.fieldDefinitions (Each FieldDefinition.IsSpelled) :=
  fieldDefinition.optionalMany .openBrace .closeBrace

/-- Interfaces are named by names. -/
theorem implementedInterfaces : Yields Reader.implementedInterfaces (Each IsName) :=
  (acceptKeyword "implements").bind fun _ _ =>
    ite (fun _ => name.separated .ampersand) fun _ => pure nofun

/-- Members of unions are named by names. -/
theorem unionMembers : Yields Reader.unionMembers (Each IsName) :=
  (accept .equals).bind fun _ _ => ite (fun _ => name.separated .bar) fun _ => pure nofun

/-- A value of an enum is named by a name. -/
theorem enumValueName : Yields Reader.enumValueName IsName :=
  current.bind fun token _ => by
    dsimp only
    split
    · exact ite (fun _ => failAt _ _) fun _ => name
    · exact name

/-- So is the value that is defined. -/
theorem enumValueDefinition :
    Yields Reader.enumValueDefinition fun value => IsName value.name :=
  description.bind fun _ _ => enumValueName.bind fun _ isName =>
    (directives true).map fun _ _ => isName

/-- The definition of a schema that is read names types by names. -/
theorem schemaDefinition : Yields Reader.schemaDefinition Definition.IsSpelled :=
  description.bind fun _ _ => (expectKeyword "schema").bind fun _ _ =>
    (directives true).bind fun _ _ =>
      (operationTypeDefinition.many .openBrace .closeBrace).map fun _ areNames => areNames

/-- A type of any kind that is read has names for names, in all of its parts. -/
theorem typeParts (kind : TypeKind) (description : Option Text) :
    Yields (Reader.typeParts kind description) TypeDefinition.IsSpelled := by
  refine name.bind fun name isName => ?_
  cases kind with
  | scalar => exact (directives true).map fun _ _ => ⟨isName, trivial⟩
  | object | interface =>
      exact implementedInterfaces.bind fun _ areNames => (directives true).bind fun _ _ =>
        fieldDefinitions.map fun _ fields => ⟨isName, areNames, fields⟩
  | union =>
      exact (directives true).bind fun _ _ => unionMembers.map fun _ areNames => ⟨isName, areNames⟩
  | enum =>
      exact (directives true).bind fun _ _ =>
        (enumValueDefinition.optionalMany .openBrace .closeBrace).map
          fun _ areNames => ⟨isName, areNames⟩
  | inputObject =>
      exact (directives true).bind fun _ _ =>
        (inputValue.optionalMany .openBrace .closeBrace).map fun _ fields => ⟨isName, fields⟩

/-- The definition of a type of any kind is spelled as definitions are. -/
theorem typeDefinition (kind : TypeKind) :
    Yields (Reader.typeDefinition kind) Definition.IsSpelled :=
  description.bind fun _ _ => advance.bind fun _ _ =>
    (typeParts kind _).map fun _ spelled => spelled

/-- A location of a directive is named by a name. -/
theorem directiveLocation : Yields Reader.directiveLocation IsName :=
  current.bind fun _ _ => name.bind fun _ isName => ite (fun _ => pure isName) fun _ => failAt _ _

/-- The definition of a directive that is read has names for names. -/
theorem directiveDefinition : Yields Reader.directiveDefinition Definition.IsSpelled :=
  description.bind fun _ _ => (expectKeyword "directive").bind fun _ _ =>
    (expect .at).bind fun _ _ => name.bind fun _ isName =>
      argumentDefinitions.bind fun _ arguments =>
      (acceptKeyword "repeatable").bind fun _ _ => (expectKeyword "on").bind fun _ _ =>
        (directiveLocation.separated .bar).map fun _ locations => ⟨isName, arguments, locations⟩

/-- An extension is spelled as what it extends is. -/
theorem extension : Yields Reader.extension Definition.IsSpelled := by
  refine lookAhead.bind fun keyword _ => ?_
  cases keyword.kind with
  | name word =>
      refine ite (fun _ => ?_) fun _ => ?_
      · refine (expectKeyword "extend").bind fun _ _ => advance.bind fun _ _ =>
          (directives true).bind fun _ _ =>
            (operationTypeDefinition.optionalMany .openBrace .closeBrace).bind
              fun _ areNames => ite (fun _ => unexpected) fun _ => pure areNames
      · split
        · exact (expectKeyword "extend").bind fun _ _ => advance.bind fun _ _ =>
            (typeParts _ none).bind fun _ spelled => ite (fun _ => unexpected) fun _ => pure spelled
        · exact failAt _ _
  | _ => exact failAt _ _

/-- Whatever keyword a definition begins with, it is spelled as definitions are. -/
theorem keywordDefinition (isDescribed : Bool) (start keyword : Token) (word : Text) :
    Yields (Reader.keywordDefinition isDescribed start keyword word) Definition.IsSpelled := by
  refine ite (fun _ => schemaDefinition) fun _ => ite (fun _ => directiveDefinition) fun _ =>
    ite (fun _ => operation) fun _ => ite (fun _ => fragment) fun _ => ?_
  split
  · exact typeDefinition _
  · exact ite (fun _ => failAt _ _) fun _ => ite (fun _ => extension) fun _ => failAt _ _

/-- A definition behind its description, by the word it begins with. -/
theorem definitionAt (start keyword : Token) : Yields
    (match keyword.kind with
    | .mark .openBrace => Reader.failAt start.position .descriptionOfShorthand
    | .name word =>
      Reader.keywordDefinition (Reader.isText start.kind) start keyword word
    | other => Reader.failAt keyword.position (.unexpected other)) Definition.IsSpelled := by
  split
  · exact failAt _ _
  · exact keywordDefinition _ _ _ _
  · exact failAt _ _

/-- A definition that is read is spelled as definitions are. -/
theorem definition : Yields Reader.definition Definition.IsSpelled := by
  refine (peek .openBrace).bind fun here _ => ite (fun _ => operation) fun _ =>
    current.bind fun start _ => ?_
  exact ite (fun _ => lookAhead.bind fun keyword _ => definitionAt start keyword) fun _ =>
    definitionAt start start

/-- All definitions of a document are, if those before were. -/
theorem definitions (fuel : Nat) {known : List Definition}
    (before : Each Definition.IsSpelled known) :
    Yields (Reader.definitions fuel known) (Each Definition.IsSpelled) := by
  induction fuel generalizing known with
  | zero => exact unexpected
  | succ fuel inductionHypothesis =>
      refine definition.bind fun next spelled => current.bind fun token _ => ?_
      have all : Each Definition.IsSpelled (next :: known) :=
        List.forall_mem_cons.mpr ⟨spelled, before⟩
      refine ite (fun _ => pure ?_) fun _ => inductionHypothesis all
      exact fun read mem => all read (List.mem_reverse.mp mem)

end Yields

/-- The names in a document that is read are names. -/
theorem isSpelled_of_parse {source : Text} {definitions : List Definition}
    (parsed : parse source = .ok definitions) : ∀ definition ∈ definitions, definition.IsSpelled :=
  (Yields.bound.bind fun fuel _ =>
    Yields.definitions fuel (List.forall_mem_nil _)).of_readWith parsed

/-- The names in a literal that is read are names. -/
theorem isSpelled_of_parseLiteral {source : Text} {literal : Literal}
    (parsed : parseLiteral source = .ok literal) : literal.IsSpelled :=
  ((Yields.literal false).bind fun _ spelled => Yields.current.bind fun _ _ =>
    Yields.ite (fun _ => Yields.pure spelled) fun _ => Yields.failAt _ _).of_readWith parsed

end SchemaOrder.Document
