import SchemaOrder.Proofs.Document.Reading
import SchemaOrder.Proofs.Matching

/-!
# Documents without places

Where something stands in a text matters to messages only. `unplaced` sets all places to zero, in
tokens and in what is read of them, and `Unplaces` says of a reader that it reads the same of tokens
without places, but for the places: it fails there when it fails with them. The relation takes two
readers, since of what was read before one of them has been given the places.
-/

namespace SchemaOrder.Document

open Outcome (Matches)

/-- The token without its place. -/
def Token.unplaced (token : Token) : Token :=
  { token with position := 0 }

/-- A token is of the same kind wherever it stands. -/
@[simp] theorem Token.kind_unplaced (token : Token) : token.unplaced.kind = token.kind :=
  rfl

/-- What a reader has in front of it, without places. What cannot be read behind the tokens is one
and the same fault. -/
def Input.unplaced (input : Input) : Input where
  current := input.current.unplaced
  following := input.following.map Token.unplaced
  fault := input.fault.map fun _ => ⟨.unexpected .endOfDocument, 0⟩
  depth := input.depth

def Argument.unplaced (argument : Argument) : Argument :=
  { argument with valuePosition := 0 }

def Directive.unplaced (directive : Directive) : Directive where
  name := directive.name
  arguments := directive.arguments.map Argument.unplaced
  position := 0

def InputValueDefinition.unplaced (definition : InputValueDefinition) : InputValueDefinition :=
  { definition with directives := definition.directives.map Directive.unplaced }

def FieldDefinition.unplaced (definition : FieldDefinition) : FieldDefinition :=
  { definition with
    arguments := definition.arguments.map InputValueDefinition.unplaced
    directives := definition.directives.map Directive.unplaced }

def EnumValueDefinition.unplaced (definition : EnumValueDefinition) : EnumValueDefinition :=
  { definition with directives := definition.directives.map Directive.unplaced }

def TypeBody.unplaced : TypeBody → TypeBody
  | .scalar => .scalar
  | .object interfaces fields => .object interfaces (fields.map FieldDefinition.unplaced)
  | .interface interfaces fields => .interface interfaces (fields.map FieldDefinition.unplaced)
  | .union members => .union members
  | .enum values => .enum (values.map EnumValueDefinition.unplaced)
  | .inputObject fields => .inputObject (fields.map InputValueDefinition.unplaced)

/-- A type is of the same kind wherever its parts stand. -/
@[simp] theorem TypeBody.kind_unplaced (body : TypeBody) : body.unplaced.kind = body.kind := by
  cases body <;> rfl

def TypeDefinition.unplaced (definition : TypeDefinition) : TypeDefinition :=
  { definition with
    directives := definition.directives.map Directive.unplaced
    body := definition.body.unplaced }

def DirectiveDefinition.unplaced (definition : DirectiveDefinition) : DirectiveDefinition :=
  { definition with arguments := definition.arguments.map InputValueDefinition.unplaced }

def SchemaDefinition.unplaced (definition : SchemaDefinition) : SchemaDefinition :=
  { definition with directives := definition.directives.map Directive.unplaced }

def VariableDefinition.unplaced (definition : VariableDefinition) : VariableDefinition :=
  { definition with directives := definition.directives.map Directive.unplaced }

mutual

def Selection.unplaced : Selection → Selection
  | .field label name arguments directives selections =>
    .field label name (arguments.map Argument.unplaced) (directives.map Directive.unplaced)
      (Selection.allUnplaced selections)
  | .spread name directives => .spread name (directives.map Directive.unplaced)
  | .inline condition directives selections =>
    .inline condition (directives.map Directive.unplaced) (Selection.allUnplaced selections)

def Selection.allUnplaced : List Selection → List Selection
  | [] => []
  | first :: rest => Selection.unplaced first :: Selection.allUnplaced rest

end

/-- What is selected in braces is without places where each part of it is. -/
theorem Selection.allUnplaced_eq_map (selections : List Selection) :
    Selection.allUnplaced selections = selections.map Selection.unplaced := by
  induction selections with
  | nil => rfl
  | cons first rest inductionHypothesis =>
      rw [Selection.allUnplaced, inductionHypothesis, List.map_cons]

/-- The part of a document without places. -/
def Definition.unplaced : Definition → Definition
  | .schema definition => .schema definition.unplaced
  | .schemaExtension definition => .schemaExtension definition.unplaced
  | .type definition => .type definition.unplaced
  | .typeExtension definition => .typeExtension definition.unplaced
  | .directive definition => .directive definition.unplaced
  | .operation word definitions directives selections =>
    .operation word (definitions.map VariableDefinition.unplaced)
      (directives.map Directive.unplaced) (selections.map Selection.unplaced)
  | .fragment name condition directives selections =>
    .fragment name condition (directives.map Directive.unplaced)
      (selections.map Selection.unplaced)

/-- Parts of a kind are selected from a document without places. -/
theorem filterMap_unplaced {α β : Type} {select : Definition → Option α}
    {select' : Definition → Option β} {erase : α → β}
    (each : ∀ part, select' part.unplaced = (select part).map erase) (document : List Definition) :
    (document.map Definition.unplaced).filterMap select' =
      (document.filterMap select).map erase := by
  rw [List.filterMap_map, List.map_filterMap]
  exact List.filterMap_congr fun part _ => each part

/-- Two readers that fail together, the first on tokens and the second on these without places, and
otherwise go equally far and read the same but for what is erased. -/
def Unplaces {α β : Type} (erase : α → β) (left : Reader α) (right : Reader β) : Prop :=
  ∀ input, Matches (fun read blank => blank = (erase read.1, read.2.unplaced)) (left.run input)
    (right.run input.unplaced)

/-- A reader that reads the same of tokens without places, but for what is erased. -/
abbrev Placeless {α : Type} (erase : α → α) (reader : Reader α) : Prop :=
  Unplaces erase reader reader

namespace Unplaces

variable {α β γ δ : Type} {erase : α → β} {left : Reader α} {right : Reader β}

/-- What is erased is known by what is left. -/
theorem of_eq {erase' : α → β} (unplaces : Unplaces erase left right)
    (same : ∀ read, erase read = erase' read) : Unplaces erase' left right :=
  funext same ▸ unplaces

/-- A value reads the same as what is left of it without places. -/
theorem pure {value : α} {blank : β} (isErased : erase value = blank) :
    Unplaces erase (Pure.pure value) (Pure.pure blank) :=
  fun _ => .ok (isErased ▸ rfl)

/-- Readers in a row read the same if each of them does, the second ones of what the first ones have
read. -/
theorem bind {erase' : γ → δ} {next : α → Reader γ} {next' : β → Reader δ}
    (first : Unplaces erase left right)
    (second : ∀ read, Unplaces erase' (next read) (next' (erase read))) :
    Unplaces erase' (left >>= next) (right >>= next') := by
  intro input
  refine (first input).bind ?_
  rintro ⟨read, behind⟩ _ rfl
  exact second read behind

/-- What is made of something that was read is the same without places, if making and leaving out
places commute. -/
theorem map {erase' : γ → δ} {change : α → γ} {change' : β → δ}
    (unplaces : Unplaces erase left right)
    (isErased : ∀ read, erase' (change read) = change' (erase read)) :
    Unplaces erase' (do return change (← left)) (do return change' (← right)) :=
  unplaces.bind fun read => pure (isErased read)

/-- One of two readers, chosen in the same way. -/
theorem ite {condition : Prop} [Decidable condition] {other : Reader α} {other' : Reader β}
    (first : Unplaces erase left right) (second : Unplaces erase other other') :
    Unplaces erase (if condition then left else other) (if condition then right else other') := by
  split
  · exact first
  · exact second

/-- Readers that fail, fail alike, wherever and for whatever reason. -/
theorem failAt (position position' : Nat) (cause cause' : Malformation) :
    Unplaces erase (Reader.failAt position cause) (Reader.failAt position' cause') :=
  fun _ => .error (ReadFault.mk cause position) (ReadFault.mk cause' position')

/-- So do readers that did not expect the token in front of them. -/
theorem unexpected : Unplaces erase Reader.unexpected Reader.unexpected :=
  fun _ => .error _ _

/-- The token in front of a reader is the same but for its place. -/
theorem current : Placeless Token.unplaced Reader.current :=
  fun _ => .ok rfl

/-- The number of tokens does not depend on their places. -/
theorem bound : Placeless id Reader.bound := by
  intro input
  refine .ok ?_
  simp [Input.unplaced]

/-- The token behind the one in front is the same but for its place. -/
theorem lookAhead : Placeless Token.unplaced Reader.lookAhead := by
  rintro ⟨token, tokens, fault, depth⟩
  cases tokens with
  | nil =>
      cases fault with
      | none => exact .ok rfl
      | some fault => exact .error _ _
  | cons second others => cases fault <;> exact .ok rfl

/-- Going on to the next token leaves no more places than there were. -/
theorem advance : Placeless id Reader.advance := by
  rintro ⟨token, tokens, fault, depth⟩
  cases tokens with
  | nil =>
      cases fault with
      | none => exact .ok rfl
      | some fault => exact .error _ _
  | cons second others => cases fault <;> exact .ok rfl

/-- Looking at a mark looks at no place. -/
theorem peek (mark : Mark) : Placeless id (Reader.peek mark) :=
  current.map fun _ => rfl

/-- Insisting on a mark depends on no place. -/
theorem expect (mark : Mark) : Placeless id (Reader.expect mark) :=
  current.bind fun _ => ite advance (failAt _ _ _ _)

/-- Nor does taking a mark where there is one. -/
theorem accept (mark : Mark) : Placeless id (Reader.accept mark) :=
  (peek mark).bind fun _ => ite (advance.bind fun _ => pure rfl) (pure rfl)

/-- Nor does insisting on a keyword. -/
theorem expectKeyword (word : Text) : Placeless id (Reader.expectKeyword word) :=
  current.bind fun _ => ite advance (failAt _ _ _ _)

/-- Nor does taking a keyword where there is one. -/
theorem acceptKeyword (word : Text) : Placeless id (Reader.acceptKeyword word) :=
  current.bind fun _ => ite (advance.bind fun _ => pure rfl) (pure rfl)

/-- A name is the same wherever it stands. -/
theorem name : Placeless id Reader.name :=
  current.bind fun ⟨kind, _⟩ => by
    cases kind with
    | name content => exact advance.bind fun _ => pure rfl
    | _ => exact failAt _ _ _ _

/-- One level deeper readers still read the same. -/
theorem nested (unplaces : Unplaces erase left right) :
    Unplaces erase (Reader.nested left) (Reader.nested right) := by
  intro input
  rw [Reads.run_nested, Reads.run_nested]
  change Matches _ _ (if Reader.greatestDepth ≤ input.depth then _ else _)
  split
  · exact .error _ _
  · refine (unplaces { input with depth := input.depth + 1 }).map ?_
    rintro ⟨read, behind⟩ _ rfl
    rfl

/-- Up to a closing mark readers of things read the same things, behind the same known ones. -/
theorem upTo (unplaces : Unplaces erase left right) (closing : Mark) (fuel : Nat)
    (known : List α) :
    Unplaces (List.map erase) (Reader.upTo fuel left closing known)
      (Reader.upTo fuel right closing (known.map erase)) := by
  induction fuel generalizing known with
  | zero => exact unexpected
  | succ fuel inductionHypothesis =>
      refine (accept closing).bind fun taken => ite (pure List.map_reverse) ?_
      exact unplaces.bind fun next => inductionHypothesis (next :: known)

/-- They read the same between two marks. -/
theorem any (unplaces : Unplaces erase left right) (opening closing : Mark) :
    Unplaces (List.map erase) (Reader.any opening left closing)
      (Reader.any opening right closing) :=
  (expect opening).bind fun _ => bound.bind fun fuel => unplaces.upTo closing fuel []

/-- They do so where at least one thing is asked for. -/
theorem many (unplaces : Unplaces erase left right) (opening closing : Mark) :
    Unplaces (List.map erase) (Reader.many opening left closing)
      (Reader.many opening right closing) :=
  (expect opening).bind fun _ => unplaces.bind fun first => bound.bind fun fuel =>
    unplaces.upTo closing fuel [first]

/-- They do so where the marks and what is between them may be left out. -/
theorem optionalMany (unplaces : Unplaces erase left right) (opening closing : Mark) :
    Unplaces (List.map erase) (Reader.optionalMany opening left closing)
      (Reader.optionalMany opening right closing) :=
  (peek opening).bind fun _ => ite (unplaces.many opening closing) (pure rfl)

/-- They read the same things where a separator is between them, behind the same known ones. -/
theorem separatedFrom (unplaces : Unplaces erase left right) (separator : Mark) (fuel : Nat)
    (known : List α) :
    Unplaces (List.map erase) (Reader.separatedFrom fuel separator left known)
      (Reader.separatedFrom fuel separator right (known.map erase)) := by
  induction fuel generalizing known with
  | zero => exact unexpected
  | succ fuel inductionHypothesis =>
      refine unplaces.bind fun next => (accept separator).bind fun taken => ?_
      exact ite (inductionHypothesis (next :: known)) (pure List.map_reverse)

/-- They do so where a separator may also stand in front of the first one. -/
theorem separated (unplaces : Unplaces erase left right) (separator : Mark) :
    Unplaces (List.map erase) (Reader.separated separator left)
      (Reader.separated separator right) :=
  (accept separator).bind fun _ => bound.bind fun fuel => unplaces.separatedFrom separator fuel []

/-- They read the same things as long as there is a mark in front of them. -/
theorem whilePeek (unplaces : Unplaces erase left right) (mark : Mark) (fuel : Nat)
    (known : List α) :
    Unplaces (List.map erase) (Reader.whilePeek fuel mark left known)
      (Reader.whilePeek fuel mark right (known.map erase)) := by
  induction fuel generalizing known with
  | zero => exact unexpected
  | succ fuel inductionHypothesis =>
      refine (peek mark).bind fun here => ite ?_ (pure List.map_reverse)
      exact unplaces.bind fun next => inductionHypothesis (next :: known)

end Unplaces

end SchemaOrder.Document
