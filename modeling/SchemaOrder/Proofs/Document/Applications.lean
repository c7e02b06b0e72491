import SchemaOrder.Proofs.Document.Literals
import SchemaOrder.Schema.Printer

/-!
# References, descriptions and directives that are read again

This module holds what the smaller pieces of definitions are cut into, and what they are read as:
references to types, descriptions and the standard directives that are applied to something.
-/

namespace SchemaOrder

open CodePoint (ofChar)
open Document

namespace TypeReference

/-- A reference that is read again where it is written. -/
inductive IsReadable : TypeReference → Prop where
  | named {name : Text} (isName : IsName name) : IsReadable (.named name)
  | list {inner : TypeReference} (readable : IsReadable inner) : IsReadable (.list inner)
  | nonNull {inner : TypeReference} (readable : IsReadable inner)
      (nullable : inner.isNonNull = false) : IsReadable (.nonNull inner)

/-- The tokens of a reference. -/
def kinds : TypeReference → List TokenKind
  | .named name => [.name name]
  | .list inner => .mark .openBracket :: (inner.kinds ++ [.mark .closeBracket])
  | .nonNull inner => inner.kinds ++ [.mark .bang]

/-- A reference is cut into its tokens. -/
theorem IsReadable.piece {reference : TypeReference} (readable : reference.IsReadable) :
    Piece reference.text reference.kinds := by
  induction readable with
  | named isName => exact Piece.name isName
  | list readable inductionHypothesis =>
      have closing : ClosedPiece "]" [.mark .closeBracket] := ClosedPiece.mark .closeBracket
      rw [text, kinds, List.append_assoc]
      exact (ClosedPiece.mark .openBracket).before (inductionHypothesis.closed closing rfl).piece
  | nonNull readable nullable inductionHypothesis =>
      have bang : ClosedPiece "!" [.mark .bang] := ClosedPiece.mark .bang
      exact (inductionHypothesis.closed bang rfl).piece

/-- Reads whether null is refused. -/
def refusal (inner : TypeReference) : Reader TypeReference := do
  if ← Reader.accept .bang then pure (.nonNull inner) else pure inner

/-- Where no exclamation mark stands, null is taken. -/
theorem reads_noRefusal {inner : TypeReference} {behind : List TokenKind}
    (absent : ∀ kind ∈ behind.head?, kind ≠ .mark .bang) :
    Reads inner.refusal [] behind fun read => read = inner :=
  Reads.bindNone (Reads.acceptNone absent) fun taken isTaken => by
    rw [isTaken, if_neg Bool.false_ne_true]
    exact Reads.pure rfl

/-- Where one stands, null is refused. -/
theorem reads_refusal (inner : TypeReference) {behind : List TokenKind} :
    Reads inner.refusal [.mark .bang] behind fun read => read = inner.nonNull :=
  Reads.bindLast (Reads.accept .bang) fun taken isTaken => by
    rw [isTaken, if_pos rfl]
    exact Reads.pure rfl

/-- The tokens of a reference are read in front of whatever goes on with it. -/
def ReadsInFront (reference : TypeReference) : Prop :=
  ∀ fuel more behind property, Reads reference.refusal more behind property →
    Reads (Reader.typeReferenceWith fuel) (reference.kinds ++ more) behind property

/-- The tokens of a reference are read where no refusal of null follows. -/
def ReadsAlone (reference : TypeReference) : Prop :=
  ∀ fuel behind, (∀ kind ∈ behind.head?, kind ≠ .mark .bang) →
    Reads (Reader.typeReferenceWith fuel) reference.kinds behind fun read => read = reference

/-- What is read in front of anything is read where no refusal follows. -/
theorem ReadsInFront.readsAlone {reference : TypeReference} (reads : ReadsInFront reference) :
    ReadsAlone reference := by
  intro fuel behind absent
  rw [← List.append_nil reference.kinds]
  exact reads fuel [] behind _ (reads_noRefusal absent)

/-- A name is read in front of anything. -/
theorem readsInFront_named (name : Text) : ReadsInFront (.named name) := by
  intro fuel more behind property refuses
  cases fuel with
  | zero => exact Reads.unexpected
  | succ fuel =>
      refine Reads.bindNone (Reads.acceptNone (by simp [kinds])) fun taken isTaken => ?_
      rw [isTaken]
      refine Reads.bind (Reads.name name) fun read isRead => ?_
      rw [isRead]
      exact refuses

/-- So is a list, if what is in it is read alone. -/
theorem readsInFront_list {inner : TypeReference} (reads : ReadsAlone inner) :
    ReadsInFront (.list inner) := by
  intro fuel more behind property refuses
  cases fuel with
  | zero => exact Reads.unexpected
  | succ fuel =>
      have item : Reads
          (do
            let item ← Reader.typeReferenceWith fuel
            Reader.expect .closeBracket
            pure item)
          (inner.kinds ++ [.mark .closeBracket]) (more ++ behind) fun read => read = inner := by
        refine Reads.bind (reads fuel _ (by simp)) fun read isRead => ?_
        exact Reads.bindLast (Reads.expect .closeBracket) fun _ _ => Reads.pure isRead
      refine Reads.bindCons (Reads.accept .openBracket) fun taken isTaken => ?_
      rw [isTaken]
      refine Reads.bind item.nested fun read isRead => ?_
      rw [isRead]
      exact refuses

/-- A reference that admits null is read in front of whatever goes on with it, which a refusal of
null does; and every reference is read alone, as the item of a list has to be. -/
theorem IsReadable.reads_parts {reference : TypeReference} (readable : reference.IsReadable) :
    (reference.isNonNull = false → ReadsInFront reference) ∧ ReadsAlone reference := by
  induction readable with
  | @named name isName =>
      exact ⟨fun _ => readsInFront_named name, (readsInFront_named name).readsAlone⟩
  | list readable inductionHypothesis =>
      have reads := readsInFront_list inductionHypothesis.2
      exact ⟨fun _ => reads, reads.readsAlone⟩
  | @nonNull inner readable nullable inductionHypothesis =>
      exact ⟨nofun, fun fuel behind _ =>
        inductionHypothesis.1 nullable fuel _ behind _ (reads_refusal inner)⟩

/-- A reference is read as it is, if no refusal of null follows. -/
theorem IsReadable.reads {reference : TypeReference} (readable : reference.IsReadable)
    {behind : List TokenKind} (absent : ∀ kind ∈ behind.head?, kind ≠ .mark .bang) :
    Reads Reader.typeReference reference.kinds behind fun read => read = reference :=
  Reads.bindNone Reads.bound fun fuel _ => readable.reads_parts.2 fuel behind absent

end TypeReference

namespace Document

/-- The token of a description, if there is one. -/
def descriptionKinds : Option Text → List TokenKind
  | none => []
  | some content => [if fitsBlock content then .block content else .text content]

/-- Blanks that a line begins with. -/
def IsIndentation (indentation : Text) : Prop :=
  ∀ codePoint ∈ indentation, codePoint.isBlank = true

/-- Indentation is cut into no tokens. -/
theorem IsIndentation.closedPiece {indentation : Text} (blank : IsIndentation indentation) :
    ClosedPiece indentation [] :=
  ClosedPiece.ignored fun codePoint mem => ⟨by simp [isIgnored, blank codePoint mem], by
    rintro rfl
    exact absurd (blank _ mem) (by decide)⟩

/-- The end of a line. -/
theorem ClosedPiece.feed : ClosedPiece "\n" [] :=
  ClosedPiece.ignored (by decide)

/-- A description is cut into its token, whatever stands behind its line. -/
theorem closedPiece_description {indentation : Text} (blank : IsIndentation indentation)
    (description : Option Text) (isFirst : Bool) :
    ClosedPiece (Schema.writeDescription description indentation isFirst)
      (descriptionKinds description) := by
  cases description with
  | none => exact ClosedPiece.nil
  | some content =>
      have start : ClosedPiece (if indentation.isEmpty || isFirst then [] else "\n") [] := by
        split
        · exact ClosedPiece.nil
        · exact ClosedPiece.feed
      have written : Piece (Schema.indentLines indentation
          (if fitsBlock content then blockText content else writeText content))
          (descriptionKinds (some content)) := by
        by_cases fits : fitsBlock content = true
        · simp only [descriptionKinds, fits, if_true]
          exact ⟨fun rest _ => Cuts.block blank fits rest,
            noReturn_indentLines_blockText blank fits⟩
        · simp only [descriptionKinds, fits, Bool.false_eq_true, if_false]
          have same : Schema.indentLines indentation (writeText content) = writeText content :=
            Text.replaceAll_singleton_of_notMem (noFeed_writeText content)
          rw [same]
          exact Piece.quoted content
      have line := written.closed ClosedPiece.feed rfl
      have whole := (start.append blank.closedPiece).append line
      rw [List.nil_append, List.append_nil, List.nil_append, ← List.append_assoc] at whole
      exact whole

/-- A description is read where one stands. -/
theorem Reads.description (description : Option Text) {behind : List TokenKind}
    (absent : description = none → ∀ kind ∈ behind.head?, Reader.isText kind = false) :
    Reads Reader.description (descriptionKinds description) behind
      fun read => read = description := by
  cases description with
  | none =>
      cases behind with
      | nil => exact fun more => absurd rfl more
      | cons kind behind =>
          refine bindNone current fun token isKind => ?_
          have notText := absent rfl kind rfl
          cases kind with
          | text => cases notText
          | block => cases notText
          | _ =>
              simp only [isKind]
              exact pure rfl
  | some content =>
      refine bindNone current fun token isKind => ?_
      by_cases fits : fitsBlock content = true
      · simp only [isKind, fits, if_true]
        exact advance.bindLast fun _ _ => pure rfl
      · simp only [isKind, fits, Bool.false_eq_true, if_false]
        exact advance.bindLast fun _ _ => pure rfl

/-- A standard directive as it is applied: its name, and its argument with the text it is given, if
it is given one. -/
structure Application where
  directive : Text
  argument : Option (Text × Text)

namespace Application

/-- The names of an application are names. -/
def IsReadable (application : Application) : Prop :=
  IsName application.directive ∧ ∀ argument ∈ application.argument, IsName argument.1

/-- An application as it is written. -/
def write (application : Application) : Text :=
  match application.argument with
  | none => " @" ++ application.directive
  | some (name, content) =>
    " @" ++ application.directive ++ "(" ++ (name ++ ": ") ++ writeText content ++ ")"

/-- The tokens of an application. -/
def kinds (application : Application) : List TokenKind :=
  .mark .at :: .name application.directive ::
    match application.argument with
    | none => []
    | some (name, content) =>
      [.mark .openParenthesis, .name name, .mark .colon, .text content, .mark .closeParenthesis]

/-- A directive that was read applies what an application does. -/
def Holds (application : Application) (directive : Document.Directive) : Prop :=
  directive.name = application.directive ∧
    directive.arguments.map (fun argument => (argument.name, argument.value)) =
      application.argument.toList.map fun argument => (argument.1, .text argument.2 false)

/-- An application is cut into its tokens. -/
theorem piece {application : Application} (readable : application.IsReadable) :
    Piece application.write application.kinds := by
  obtain ⟨directive, argument⟩ := application
  obtain ⟨isName, areNames⟩ := readable
  have blank : ClosedPiece " " [] := ClosedPiece.ignored (by decide)
  have start : ClosedPiece " @" [.mark .at] := blank.append (ClosedPiece.mark .at)
  have named : Piece (" @" ++ directive) [.mark .at, .name directive] :=
    start.before (Piece.name isName)
  cases argument with
  | none => exact named
  | some argument =>
      obtain ⟨name, content⟩ := argument
      have opening : ClosedPiece "(" [.mark .openParenthesis] :=
        ClosedPiece.mark .openParenthesis
      have closing : ClosedPiece ")" [.mark .closeParenthesis] :=
        ClosedPiece.mark .closeParenthesis
      have opened := named.closed opening rfl
      have labelled := opened.append (ClosedPiece.label (areNames _ rfl))
      exact ((labelled.before (Piece.quoted content)).closed closing rfl).piece

/-- The tokens of an argument that is given a text. -/
def argumentKinds (argument : Text × Text) : List TokenKind :=
  [.name argument.1, .mark .colon, .text argument.2]

/-- An argument that is given a text is read as it is. -/
theorem isPart_argument (argument : Text × Text) :
    IsPart (Reader.argument true) (fun _ => True) .closeParenthesis (argumentKinds argument)
      fun read => (read.name, read.value) = (argument.1, .text argument.2 false) := by
  obtain ⟨name, content⟩ := argument
  refine ⟨fun behind _ => ?_, _, _, rfl, trivial, nofun⟩
  refine Reads.bindCons (Reads.name name) fun argumentName isName => ?_
  refine Reads.bindCons (Reads.expect .colon) fun _ _ => ?_
  refine Reads.bindNone Reads.current fun token _ => ?_
  refine ((Literal.IsReadable.text content).reads behind).map ?_
  rintro read rfl
  rw [isName]
  rfl

/-- An application is read as it is, if no arguments follow. -/
theorem reads (application : Application) {behind : List TokenKind}
    (absent : ∀ kind ∈ behind.head?, kind ≠ .mark .openParenthesis) :
    Reads (Reader.directive true) application.kinds behind application.Holds := by
  obtain ⟨directive, argument⟩ := application
  have arguments : Reads (Reader.arguments true)
      (if argument.toList = [] then []
        else .mark .openParenthesis :: (argument.toList.flatMap argumentKinds ++
          [.mark .closeParenthesis])) behind
      (List.Forall₂ (fun argument read => (read.name, read.value) =
        (argument.1, .text argument.2 false)) argument.toList) :=
    Reads.optionalMany (fun argument _ => isPart_argument argument) trivial .openParenthesis
      fun _ => absent
  refine Reads.bindNone Reads.current fun token _ => ?_
  refine Reads.bindCons (Reads.expect .at) fun _ _ => ?_
  refine Reads.bindCons (Reads.name directive) fun name isName => ?_
  cases argument with
  | none =>
      refine arguments.map fun values all => ⟨isName, ?_⟩
      cases all
      rfl
  | some argument =>
      refine arguments.map fun values all => ⟨isName, ?_⟩
      cases all with
      | cons holds others =>
          cases others
          exact congrArg (fun value => [value]) holds

end Application

end Document

end SchemaOrder
