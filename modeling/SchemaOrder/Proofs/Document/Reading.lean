import SchemaOrder.Document.Parser
import SchemaOrder.Proofs.Document.Cutting
import SchemaOrder.Proofs.Outcome

/-!
# What readers read

A reader takes the tokens of one part of a document and leaves those behind it. `Reads` says so
of a reader, the tokens it takes and what it makes of them: where it does not fail, it has taken
just these. A sequence of readers takes what its parts take, so that what a reader reads follows
from what the readers it is made of do.
-/

namespace SchemaOrder.Document

open Outcome (bind_eq_ok_iff map_eq_ok_iff)

/-- The tokens ahead are of the given kinds, or the first ones are and then there is a fault. -/
def Ahead (kinds : List TokenKind) (input : Input) : Prop :=
  let found := (input.current :: input.following).map Token.kind
  (found = kinds ∧ input.fault = none) ∨ (found <+: kinds ∧ input.fault.isSome)

/-- The current token is of the first kind. -/
theorem Ahead.current {kind : TokenKind} {kinds : List TokenKind} {input : Input}
    (ahead : Ahead (kind :: kinds) input) : input.current.kind = kind := by
  rcases ahead with ⟨whole, -⟩ | ⟨isPrefix, -⟩
  · exact (List.cons.inj whole).1
  · exact (List.cons_prefix_cons.mp isPrefix).1

/-- There always is a current token. -/
theorem Ahead.ne_nil {kinds : List TokenKind} {input : Input} (ahead : Ahead kinds input) :
    kinds ≠ [] := by
  rintro rfl
  rcases ahead with ⟨whole, -⟩ | ⟨isPrefix, -⟩
  · cases whole
  · exact absurd (List.prefix_nil.mp isPrefix) (List.cons_ne_nil _ _)

/-- How deep something is nested does not matter for what is ahead. -/
theorem Ahead.withDepth {kinds : List TokenKind} {input : Input} (ahead : Ahead kinds input)
    (depth : Nat) : Ahead kinds { input with depth } :=
  ahead

/-- A sequence of two readers gives what the second one gives behind the first one. -/
theorem run_bind_eq_ok {α β : Type} {first : Reader α} {following : α → Reader β} {input : Input}
    {result : β × Input} (given : (first >>= following).run input = .ok result) :
    ∃ middle state, first.run input = .ok (middle, state) ∧
      (following middle).run state = .ok result := by
  obtain ⟨⟨middle, state⟩, givenFirst, givenSecond⟩ := bind_eq_ok_iff.mp given
  exact ⟨middle, state, givenFirst, givenSecond⟩

/-- Where a reader succeeds on tokens of the given kinds, with others behind, it has taken these
tokens and gives something that has the property. -/
def Reads {α : Type} (reader : Reader α) (kinds behind : List TokenKind) (property : α → Prop) :
    Prop :=
  behind ≠ [] → ∀ input read next, Ahead (kinds ++ behind) input →
    reader.run input = .ok (read, next) → Ahead behind next ∧ property read

namespace Reads

variable {α β : Type} {reader : Reader α} {kinds behind : List TokenKind} {property : α → Prop}

/-- What a reader gives has all properties that follow from the one it has. -/
theorem weaken {weaker : α → Prop} (reads : Reads reader kinds behind property)
    (implies : ∀ read, property read → weaker read) : Reads reader kinds behind weaker :=
  fun more input read next ahead given =>
    (reads more input read next ahead given).imp_right (implies read)

/-- A reader that gives something at once takes nothing. -/
theorem pure {value : α} (holds : property value) : Reads (pure value) [] behind property := by
  intro more input read next ahead given
  cases given
  exact ⟨ahead, holds⟩

/-- One reader after another takes what the two take. -/
theorem bind {following : α → Reader β} {others : List TokenKind} {result : β → Prop}
    (first : Reads reader kinds (others ++ behind) property)
    (second : ∀ read, property read → Reads (following read) others behind result) :
    Reads (reader >>= following) (kinds ++ others) behind result := by
  intro more input read next ahead given
  rw [List.append_assoc] at ahead
  obtain ⟨middle, state, givenFirst, givenSecond⟩ := run_bind_eq_ok given
  obtain ⟨aheadSecond, holds⟩ :=
    first (List.append_ne_nil_of_right_ne_nil _ more) input middle state ahead givenFirst
  exact second middle holds more state read next aheadSecond givenSecond

/-- A first reader that takes nothing. -/
theorem bindNone {following : α → Reader β} {result : β → Prop}
    (first : Reads reader [] (kinds ++ behind) property)
    (second : ∀ read, property read → Reads (following read) kinds behind result) :
    Reads (reader >>= following) kinds behind result :=
  bind first second

/-- A first reader that takes one token. -/
theorem bindCons {following : α → Reader β} {kind : TokenKind} {result : β → Prop}
    (first : Reads reader [kind] (kinds ++ behind) property)
    (second : ∀ read, property read → Reads (following read) kinds behind result) :
    Reads (reader >>= following) (kind :: kinds) behind result :=
  bind first second

/-- A last reader that takes nothing. -/
theorem bindLast {following : α → Reader β} {result : β → Prop}
    (first : Reads reader kinds behind property)
    (second : ∀ read, property read → Reads (following read) [] behind result) :
    Reads (reader >>= following) kinds behind result := by
  rw [← List.append_nil kinds]
  exact bind first second

/-- A reader whose result is changed takes the same tokens. -/
theorem map {change : α → β} {result : β → Prop} (reads : Reads reader kinds behind property)
    (becomes : ∀ read, property read → result (change read)) :
    Reads (do return change (← reader)) kinds behind result :=
  reads.bindLast fun read holds => pure (becomes read holds)

/-- A reader that only fails. -/
theorem failAt (position : Nat) (cause : Malformation) :
    Reads (Reader.failAt position cause : Reader α) kinds behind property :=
  fun _ _ _ _ _ given => nomatch given

/-- So is a reader that refuses the token that stands here. -/
theorem unexpected : Reads (Reader.unexpected : Reader α) kinds behind property :=
  fun _ _ _ _ _ given => nomatch given

/-- The tokens left bound a loop, whatever they are. -/
theorem bound : Reads Reader.bound [] behind fun _ => True := by
  intro more input read next ahead given
  cases given
  exact ⟨ahead, trivial⟩

/-- The token that stands here is looked at. -/
theorem current {kind : TokenKind} :
    Reads Reader.current [] (kind :: behind) fun token => token.kind = kind := by
  intro more input read next ahead given
  cases given
  exact ⟨ahead, ahead.current⟩

/-- The token that stands here is taken. -/
theorem advance {kind : TokenKind} : Reads Reader.advance [kind] behind fun _ => True := by
  intro more input read next ahead given
  obtain ⟨token, tokens, fault, depth⟩ := input
  refine ⟨?_, trivial⟩
  cases tokens with
  | nil =>
      rcases ahead with ⟨whole, -⟩ | ⟨-, faulty⟩
      · exact absurd (List.cons.inj whole).2.symm more
      · obtain ⟨cause, rfl⟩ := Option.isSome_iff_exists.mp faulty
        cases given
  | cons second others =>
      have moved : next = ⟨second, others, fault, depth⟩ := by
        cases fault <;> cases given <;> rfl
      subst moved
      rcases ahead with ⟨whole, none⟩ | ⟨isPrefix, faulty⟩
      · exact .inl ⟨(List.cons.inj whole).2, none⟩
      · exact .inr ⟨(List.cons_prefix_cons.mp isPrefix).2, faulty⟩

/-- Whether a mark stands here is told by the token. -/
theorem peek {kind : TokenKind} (mark : Mark) :
    Reads (Reader.peek mark) [] (kind :: behind) fun here => here = decide (kind = .mark mark) :=
  current.map fun token isKind => by rw [isKind]

/-- A mark that stands here is seen. -/
theorem peekHere (mark : Mark) :
    Reads (Reader.peek mark) [] (.mark mark :: behind) fun here => here = true :=
  (peek mark).weaken fun _ isHere => by simpa using isHere

/-- A mark that does not stand here is not seen. -/
theorem peekNone {mark : Mark} (absent : ∀ kind ∈ behind.head?, kind ≠ .mark mark) :
    Reads (Reader.peek mark) [] behind fun here => here = false := by
  cases behind with
  | nil => exact fun more => absurd rfl more
  | cons kind behind =>
      exact (peek mark).weaken fun _ isHere => by simpa [absent kind rfl] using isHere

/-- A mark that has to stand here and does is taken. -/
theorem expect (mark : Mark) : Reads (Reader.expect mark) [.mark mark] behind fun _ => True :=
  bindNone current fun token isKind => by
    simp only [isKind, if_true]
    exact advance

/-- A mark that stands here is taken. -/
theorem accept (mark : Mark) :
    Reads (Reader.accept mark) [.mark mark] behind fun taken => taken = true :=
  bindNone (peekHere mark) fun here isHere => by
    simp only [isHere, if_true]
    exact advance.bindLast fun _ _ => pure rfl

/-- A mark that does not stand here is not taken. -/
theorem acceptNone {mark : Mark} (absent : ∀ kind ∈ behind.head?, kind ≠ .mark mark) :
    Reads (Reader.accept mark) [] behind fun taken => taken = false :=
  bindNone (peekNone absent) fun here isHere => by
    simp only [isHere, Bool.false_eq_true, if_false]
    exact pure rfl

/-- A keyword that has to stand here and does is taken. -/
theorem expectKeyword (word : Text) :
    Reads (Reader.expectKeyword word) [.name word] behind fun _ => True :=
  bindNone current fun token isKind => by
    simp only [isKind, if_true]
    exact advance

/-- A keyword that stands here is taken. -/
theorem acceptKeyword (word : Text) :
    Reads (Reader.acceptKeyword word) [.name word] behind fun taken => taken = true :=
  bindNone current fun token isKind => by
    simp only [isKind, if_true]
    exact advance.bindLast fun _ _ => pure rfl

/-- A keyword that does not stand here is not taken. -/
theorem acceptKeywordNone {word : Text} (absent : ∀ kind ∈ behind.head?, kind ≠ .name word) :
    Reads (Reader.acceptKeyword word) [] behind fun taken => taken = false := by
  cases behind with
  | nil => exact fun more => absurd rfl more
  | cons kind others =>
      refine bindNone current fun token isKind => ?_
      simp only [isKind, absent kind rfl, if_false]
      exact pure rfl

/-- A part that counts as a level of nesting is read one level deeper, if at all. -/
theorem run_nested (reader : Reader α) (input : Input) :
    (Reader.nested reader).run input =
      if Reader.greatestDepth ≤ input.depth then .error ⟨.nestedTooDeeply, input.current.position⟩
      else (reader.run { input with depth := input.depth + 1 }).map fun result =>
        (result.1, { result.2 with depth := result.2.depth - 1 }) := by
  by_cases deep : Reader.greatestDepth ≤ input.depth
  · simp [Reader.nested, deep, Reader.failAt]
    rfl
  · cases isRead : reader.run { input with depth := input.depth + 1 } <;>
      simp [Reader.nested, deep, isRead, Except.map]

/-- A part that counts as a level of nesting takes the tokens that it takes anywhere. -/
theorem nested (reads : Reads reader kinds behind property) :
    Reads (Reader.nested reader) kinds behind property := by
  intro more input read next ahead given
  rw [run_nested] at given
  split at given
  · cases given
  · obtain ⟨⟨inner, after⟩, givenInner, isResult⟩ := map_eq_ok_iff.mp given
    cases isResult
    obtain ⟨aheadAfter, holds⟩ := reads more _ inner after (ahead.withDepth _) givenInner
    exact ⟨aheadAfter.withDepth _, holds⟩

/-- A name that stands here is taken as it is. -/
theorem name (content : Text) :
    Reads Reader.name [.name content] behind fun read => read = content :=
  bindNone current fun token isKind => by
    simp only [isKind]
    exact advance.bindLast fun _ _ => pure rfl

/-- The token behind the current one is looked at. -/
theorem lookAhead {kind second : TokenKind} :
    Reads Reader.lookAhead [] (kind :: second :: behind) fun token => token.kind = second := by
  intro more input read next ahead given
  obtain ⟨token, tokens, fault, depth⟩ := input
  refine ⟨?_, ?_⟩
  · have kept : next = ⟨token, tokens, fault, depth⟩ := by
      cases tokens <;> cases fault <;> cases given <;> rfl
    rwa [kept]
  · cases tokens with
    | nil =>
        rcases ahead with ⟨whole, -⟩ | ⟨-, faulty⟩
        · cases whole
        · obtain ⟨cause, rfl⟩ := Option.isSome_iff_exists.mp faulty
          cases given
    | cons found others =>
        have isFound : read = found := by
          cases fault <;> cases given <;> rfl
        rw [isFound]
        rcases ahead with ⟨whole, -⟩ | ⟨isPrefix, -⟩
        · exact (List.cons.inj (List.cons.inj whole).2).1
        · exact (List.cons_prefix_cons.mp (List.cons_prefix_cons.mp isPrefix).2).1

end Reads

/-- A reader that fails on tokens of the given kinds. -/
def Fails {α : Type} (reader : Reader α) (kinds : List TokenKind) : Prop :=
  ∀ input, Ahead kinds input → ∀ read, reader.run input ≠ .ok read

namespace Fails

variable {α β : Type} {reader : Reader α} {kinds behind : List TokenKind}

/-- Of a reader that fails on its tokens anything can be said. -/
theorem reads {property : α → Prop} (fails : Fails reader (kinds ++ behind)) :
    Reads reader kinds behind property :=
  fun _ input read next ahead given => absurd given (fails input ahead (read, next))

/-- A reader that fails does so whatever comes after it. -/
theorem bind (fails : Fails reader kinds) (following : α → Reader β) :
    Fails (reader >>= following) kinds := by
  intro input ahead read given
  obtain ⟨middle, state, given, -⟩ := run_bind_eq_ok given
  exact fails input ahead (middle, state) given

/-- A reader that fails behind one that takes nothing. -/
theorem bindNone {following : α → Reader β} {property : α → Prop}
    (first : Reads reader [] kinds property)
    (second : ∀ read, property read → Fails (following read) kinds) :
    Fails (reader >>= following) kinds := by
  intro input ahead read given
  obtain ⟨middle, state, givenFirst, givenSecond⟩ := run_bind_eq_ok given
  obtain ⟨aheadSecond, holds⟩ := first ahead.ne_nil input middle state ahead givenFirst
  exact second middle holds state aheadSecond read givenSecond

/-- A reader that only fails. -/
theorem failAt (position : Nat) (cause : Malformation) :
    Fails (Reader.failAt position cause : Reader α) kinds :=
  fun _ _ _ given => nomatch given

/-- So is a reader that refuses the token that stands here. -/
theorem unexpected : Fails (Reader.unexpected : Reader α) kinds :=
  fun _ _ _ given => nomatch given

/-- A keyword that has to stand here and does not. -/
theorem expectKeyword {word : Text} (absent : ∀ kind ∈ kinds.head?, kind ≠ .name word) :
    Fails (Reader.expectKeyword word) kinds := by
  cases kinds with
  | nil => exact fun input ahead => absurd rfl ahead.ne_nil
  | cons kind kinds =>
      refine bindNone Reads.current fun token isKind => ?_
      simp only [isKind, absent kind rfl, if_false]
      exact failAt _ _

/-- Only a name is read as one. -/
theorem kind_of_run_name {input next : Input} {read : Text}
    (given : Reader.name.run input = .ok (read, next)) : input.current.kind = .name read := by
  unfold Reader.name at given
  obtain ⟨token, state, isToken, given⟩ := run_bind_eq_ok given
  cases isToken
  cases isKind : input.current.kind with
  | name content =>
      simp only [isKind] at given
      obtain ⟨_, _, -, given⟩ := run_bind_eq_ok given
      cases given
      rfl
  | _ =>
      simp only [isKind] at given
      cases given

/-- A name that has to stand here where something else stands. -/
theorem name (absent : ∀ kind ∈ kinds.head?, ∀ content, kind ≠ .name content) :
    Fails Reader.name kinds := by
  intro input ahead result given
  cases kinds with
  | nil => exact ahead.ne_nil rfl
  | cons kind kinds =>
      exact absent kind rfl _ (ahead.current.symm.trans (kind_of_run_name given))

end Fails

/-- What a part of a list takes, and what it tells: it may stand in front of whatever may follow it,
and begins with something that may follow another part and does not end the list. -/
structure IsPart {α : Type} (part : Reader α) (follows : TokenKind → Prop) (closing : Mark)
    (kinds : List TokenKind) (tells : α → Prop) : Prop where
  reads : ∀ behind, (∀ kind ∈ behind.head?, follows kind) → Reads part kinds behind tells
  begins : ∃ first others, kinds = first :: others ∧ follows first ∧ first ≠ .mark closing

namespace Reads

variable {ι α : Type} {part : Reader α} {behind : List TokenKind} {items : List ι}
  {kinds : ι → List TokenKind} {tells : ι → α → Prop} {follows : TokenKind → Prop} {closing : Mark}

/-- Parts one after the other begin like the first one, or with what stands behind. -/
theorem follows_flatMap
    (areParts : ∀ item ∈ items, IsPart part follows closing (kinds item) (tells item))
    (closes : ∀ kind ∈ behind.head?, follows kind) :
    ∀ kind ∈ (items.flatMap kinds ++ behind).head?, follows kind := by
  cases items with
  | nil => exact closes
  | cons item items =>
      obtain ⟨first, others, isCons, follows, -⟩ := (areParts item (by simp)).begins
      rw [List.flatMap_cons, isCons]
      rintro kind ⟨⟩
      exact follows

/-- Parts up to a closing mark. The induction is on the parts that are left, with those that were
read kept backwards. -/
theorem upTo (areParts : ∀ item ∈ items, IsPart part follows closing (kinds item) (tells item))
    (closes : follows (.mark closing)) (fuel : Nat) (known : List α) :
    Reads (Reader.upTo fuel part closing known) (items.flatMap kinds ++ [.mark closing]) behind
      fun read => ∃ values, read = known.reverse ++ values ∧ List.Forall₂ tells items values := by
  induction items generalizing fuel known with
  | nil =>
      cases fuel with
      | zero => exact unexpected
      | succ fuel =>
          refine bindLast (accept closing) fun taken isTaken => ?_
          rw [isTaken, if_pos rfl]
          exact pure ⟨[], by simp, .nil⟩
  | cons item items inductionHypothesis =>
      cases fuel with
      | zero => exact unexpected
      | succ fuel =>
          have areOthers := fun other mem => areParts other (List.mem_cons_of_mem item mem)
          obtain ⟨reads, first, others, isCons, -, notClosing⟩ := areParts item (by simp)
          have behindPart : ∀ kind ∈ (items.flatMap kinds ++ [TokenKind.mark closing] ++
              behind).head?, follows kind := by
            rw [List.append_assoc]
            exact follows_flatMap areOthers fun kind isFirst => by
              obtain rfl : TokenKind.mark closing = kind := by simpa using isFirst
              exact closes
          rw [List.flatMap_cons, List.append_assoc]
          refine bindNone (acceptNone ?_) fun taken isTaken => ?_
          · rw [isCons]
            rintro kind ⟨⟩
            exact notClosing
          · rw [isTaken, if_neg Bool.false_ne_true]
            refine bind (reads _ behindPart) fun value holds => ?_
            refine (inductionHypothesis areOthers fuel (value :: known)).weaken ?_
            rintro read ⟨values, rfl, all⟩
            exact ⟨value :: values, by simp, .cons holds all⟩

/-- Parts between two marks. -/
theorem any (areParts : ∀ item ∈ items, IsPart part follows closing (kinds item) (tells item))
    (closes : follows (.mark closing)) (opening : Mark) :
    Reads (Reader.any opening part closing)
      (.mark opening :: (items.flatMap kinds ++ [.mark closing])) behind
      (List.Forall₂ tells items) := by
  refine bindCons (expect opening) fun _ _ => ?_
  refine bindNone bound fun fuel _ => (upTo areParts closes fuel []).weaken ?_
  rintro read ⟨values, rfl, all⟩
  exact all

/-- One part or more between two marks. -/
theorem many (areParts : ∀ item ∈ items, IsPart part follows closing (kinds item) (tells item))
    (nonempty : items ≠ []) (closes : follows (.mark closing)) (opening : Mark) :
    Reads (Reader.many opening part closing)
      (.mark opening :: (items.flatMap kinds ++ [.mark closing])) behind
      (List.Forall₂ tells items) := by
  obtain ⟨item, items, rfl⟩ := List.exists_cons_of_ne_nil nonempty
  have areOthers := fun other mem => areParts other (List.mem_cons_of_mem item mem)
  refine bindCons (expect opening) fun _ _ => ?_
  change Reads _ (kinds item ++ items.flatMap kinds ++ [.mark closing]) _ _
  rw [List.append_assoc]
  refine bind ((areParts item (by simp)).reads _ ?_) fun value holds => ?_
  · rw [List.append_assoc]
    exact follows_flatMap areOthers fun kind isFirst => by
      obtain rfl : TokenKind.mark closing = kind := by simpa using isFirst
      exact closes
  · refine bindNone bound fun fuel _ => (upTo areOthers closes fuel [value]).weaken ?_
    rintro read ⟨values, rfl, all⟩
    exact .cons holds all

/-- Between two marks there has to be a part. -/
theorem manyNone {opening : Mark} (fails : Fails part (.mark closing :: behind))
    (property : List α → Prop) :
    Reads (Reader.many opening part closing) [.mark opening, .mark closing] behind property :=
  bindCons (expect opening) fun _ _ => Fails.reads (fails.bind _)

/-- Parts between two marks, where these do not stand if there are no parts. -/
theorem optionalMany
    (areParts : ∀ item ∈ items, IsPart part follows closing (kinds item) (tells item))
    (closes : follows (.mark closing)) (opening : Mark)
    (absent : items = [] → ∀ kind ∈ behind.head?, kind ≠ .mark opening) :
    Reads (Reader.optionalMany opening part closing)
      (if items = [] then [] else .mark opening :: (items.flatMap kinds ++ [.mark closing])) behind
      (List.Forall₂ tells items) := by
  by_cases empty : items = []
  · subst empty
    rw [if_pos rfl]
    refine bindNone (peekNone (absent rfl)) fun here isHere => ?_
    rw [isHere, if_neg Bool.false_ne_true]
    exact pure .nil
  · rw [if_neg empty]
    refine bindNone (peekHere opening) fun here isHere => ?_
    rw [isHere, if_pos rfl]
    exact many areParts empty closes opening

/-- Parts that begin with a mark, as long as there are any. -/
theorem whilePeek {mark : Mark}
    (reads : ∀ item ∈ items, ∀ behind, (∀ kind ∈ behind.head?, follows kind) →
      Reads part (kinds item) behind (tells item))
    (begins : ∀ item ∈ items, ∃ others, kinds item = .mark mark :: others)
    (continues : follows (.mark mark)) (closes : ∀ kind ∈ behind.head?, follows kind)
    (absent : ∀ kind ∈ behind.head?, kind ≠ .mark mark) (fuel : Nat) (known : List α) :
    Reads (Reader.whilePeek fuel mark part known) (items.flatMap kinds) behind
      fun read => ∃ values, read = known.reverse ++ values ∧ List.Forall₂ tells items values := by
  induction items generalizing fuel known with
  | nil =>
      cases fuel with
      | zero => exact unexpected
      | succ fuel =>
          refine bindNone (peekNone absent) fun here isHere => ?_
          rw [isHere, if_neg Bool.false_ne_true]
          exact pure ⟨[], by simp, .nil⟩
  | cons item items inductionHypothesis =>
      cases fuel with
      | zero => exact unexpected
      | succ fuel =>
          obtain ⟨others, isCons⟩ := begins item (by simp)
          have behindPart : ∀ kind ∈ (items.flatMap kinds ++ behind).head?, follows kind := by
            cases items with
            | nil => exact closes
            | cons second items =>
                obtain ⟨others, isCons⟩ := begins second (by simp)
                rw [List.flatMap_cons, isCons]
                rintro kind ⟨⟩
                exact continues
          have isHere : Reads (Reader.peek mark) [] (kinds item ++ items.flatMap kinds ++ behind)
              fun here => here = true := by
            rw [isCons]
            exact peekHere mark
          rw [List.flatMap_cons]
          refine bindNone isHere fun here isHere => ?_
          · rw [isHere, if_pos rfl]
            refine bind (reads item (by simp) _ behindPart) fun value holds => ?_
            refine (inductionHypothesis
              (fun other mem => reads other (List.mem_cons_of_mem item mem))
              (fun other mem => begins other (List.mem_cons_of_mem item mem)) fuel
              (value :: known)).weaken ?_
            rintro read ⟨values, rfl, all⟩
            exact ⟨value :: values, by simp, .cons holds all⟩

/-- Parts with a mark between neighbours. -/
theorem separatedFrom {separator : Mark}
    (reads : ∀ item ∈ items, ∀ behind, Reads part (kinds item) behind (tells item))
    (nonempty : items ≠ []) (absent : ∀ kind ∈ behind.head?, kind ≠ .mark separator) (fuel : Nat)
    (known : List α) :
    Reads (Reader.separatedFrom fuel separator part known)
      ((items.map kinds).intersperse [.mark separator]).flatten behind
      fun read => ∃ values, read = known.reverse ++ values ∧ List.Forall₂ tells items values := by
  induction items generalizing fuel known with
  | nil => exact absurd rfl nonempty
  | cons item items inductionHypothesis =>
      cases fuel with
      | zero => exact unexpected
      | succ fuel =>
          cases items with
          | nil =>
              change Reads _ ([kinds item].flatten) _ _
              rw [List.flatten_singleton]
              refine bindLast (reads item (by simp) _) fun value holds => ?_
              refine bindNone (acceptNone absent) fun taken isTaken => ?_
              rw [isTaken, if_neg Bool.false_ne_true]
              exact pure ⟨[value], by simp, .cons holds .nil⟩
          | cons second items =>
              have areOthers := fun other mem => reads other (List.mem_cons_of_mem item mem)
              change Reads _ (kinds item ++ .mark separator ::
                (((second :: items).map kinds).intersperse [.mark separator]).flatten) _ _
              refine bind (reads item (by simp) _) fun value holds => ?_
              refine bindCons (accept separator) fun taken isTaken => ?_
              rw [isTaken, if_pos rfl]
              refine (inductionHypothesis areOthers (List.cons_ne_nil _ _) fuel
                (value :: known)).weaken ?_
              rintro read ⟨values, rfl, all⟩
              exact ⟨value :: values, by simp, .cons holds all⟩

/-- Parts with a mark between neighbours, which does not stand before the first part. -/
theorem separated {separator : Mark}
    (reads : ∀ item ∈ items, ∀ behind, Reads part (kinds item) behind (tells item))
    (begins : ∀ item ∈ items, ∃ first others, kinds item = first :: others ∧
      first ≠ .mark separator)
    (nonempty : items ≠ []) (absent : ∀ kind ∈ behind.head?, kind ≠ .mark separator) :
    Reads (Reader.separated separator part)
      ((items.map kinds).intersperse [.mark separator]).flatten behind
      (List.Forall₂ tells items) := by
  refine bindNone (acceptNone ?_) fun _ _ => ?_
  · obtain ⟨item, items, rfl⟩ := List.exists_cons_of_ne_nil nonempty
    obtain ⟨first, others, isCons, differ⟩ := begins item (by simp)
    cases items <;> simp [isCons, differ]
  · refine bindNone bound fun fuel _ => (separatedFrom reads nonempty absent fuel []).weaken ?_
    rintro read ⟨values, rfl, all⟩
    exact all

end Reads

end SchemaOrder.Document
