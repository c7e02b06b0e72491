import Mathlib.Data.List.TakeWhile
import SchemaOrder.Document.Lexer
import SchemaOrder.Text.Utf8

/-!
# Texts with the same line ends

A text from a file has a line feed in the place of every line end. `Unifies` relates a text to the
one with line feeds, code point by code point, so that two readers can go along both texts at once.
Whatever is looked for that is no line end is found in both or in neither, and taking something off
both texts that holds no line end, or all of something that takes line ends in, keeps the relation.
Two cursors that have moved on in one of these ways still have the same in front of them.
-/

namespace SchemaOrder.Text

open CodePoint (ofChar)
open Document (isLineEnd)

/-- A text without a line end. -/
abbrev WithinLine (text : Text) : Prop :=
  ∀ codePoint ∈ text, isLineEnd codePoint = false

/-- What stands behind the line end that a code point begins: a carriage return and a line feed are
one line end together. -/
def behindLineEnd (first : CodePoint) (others : Text) : Text :=
  if first = ofChar '\r' ∧ others.head? = some (ofChar '\n') then others.drop 1 else others

/-- Behind a line end there is no more than behind the code point that begins it. -/
theorem length_behindLineEnd (first : CodePoint) (others : Text) :
    (behindLineEnd first others).length ≤ others.length := by
  unfold behindLineEnd
  split <;> simp

/-- A line feed is a line end by itself. -/
theorem behindLineEnd_feed (others : Text) : behindLineEnd (ofChar '\n') others = others :=
  if_neg fun both => absurd both.1 (by decide)

/-- What follows something without a line end, and has none itself. -/
theorem withinLine_take_add {text : Text} {count more : Nat} (within : WithinLine (text.take count))
    (withinMore : WithinLine ((text.drop count).take more)) :
    WithinLine (text.take (count + more)) := by
  rw [List.take_add]
  exact List.forall_mem_append.mpr ⟨within, withinMore⟩

/-- One more code point that ends no line. -/
theorem withinLine_take_succ {text : Text} {count : Nat} {codePoint : CodePoint}
    (within : WithinLine (text.take count)) (isNext : (text.drop count).head? = some codePoint)
    (notEnd : isLineEnd codePoint = false) : WithinLine (text.take (count + 1)) := by
  rw [List.take_add_one, ← List.head?_drop, isNext]
  exact List.forall_mem_append.mpr ⟨within, List.forall_mem_singleton.mpr notEnd⟩

/-- The first code point, if it ends no line. -/
theorem withinLine_take_one {text : Text} {codePoint : CodePoint}
    (isNext : text.head? = some codePoint) (notEnd : isLineEnd codePoint = false) :
    WithinLine (text.take 1) := by
  rw [List.take_one, isNext]
  exact List.forall_mem_singleton.mpr notEnd

/-- The second text is the first one with a line feed in the place of every line end. -/
inductive Unifies : Text → Text → Prop where
  | nil : Unifies [] []
  | plain {codePoint : CodePoint} {left right : Text} (notEnd : isLineEnd codePoint = false)
      (rest : Unifies left right) : Unifies (codePoint :: left) (codePoint :: right)
  | lineEnd {first : CodePoint} {others right : Text} (isEnd : isLineEnd first = true)
      (rest : Unifies (behindLineEnd first others) right) :
      Unifies (first :: others) (ofChar '\n' :: right)

/-- The line ends are the line feed and the carriage return. -/
theorem isLineEnd_iff {codePoint : CodePoint} :
    isLineEnd codePoint = true ↔ codePoint = ofChar '\n' ∨ codePoint = ofChar '\r' := by
  rw [isLineEnd, Bool.or_eq_true, beq_iff_eq, beq_iff_eq]
  exact or_congr ⟨fun values => CodePoint.ext values, congrArg CodePoint.value⟩
    ⟨fun values => CodePoint.ext values, congrArg CodePoint.value⟩

/-- A class that takes in neither of the code points that end lines. -/
theorem not_admitted_of_isLineEnd (admits : CodePoint → Bool)
    (noFeed : admits (ofChar '\n') = false) (noReturn : admits (ofChar '\r') = false)
    {codePoint : CodePoint} (isEnd : isLineEnd codePoint = true) : admits codePoint = false := by
  obtain rfl | rfl := isLineEnd_iff.mp isEnd <;> assumption

/-- What is in such a class ends no line. -/
theorem isLineEnd_of_admitted (admits : CodePoint → Bool) (noFeed : admits (ofChar '\n') = false)
    (noReturn : admits (ofChar '\r') = false) (codePoint : CodePoint)
    (admitted : admits codePoint = true) : isLineEnd codePoint = false := by
  rw [Bool.eq_false_iff]
  intro isEnd
  rw [not_admitted_of_isLineEnd admits noFeed noReturn isEnd] at admitted
  cases admitted

/-- A text always has lines. -/
theorem lines_go_ne_nil (text : Text) (afterReturn : Bool) : lines.go text afterReturn ≠ [] := by
  induction text generalizing afterReturn with
  | nil => exact List.cons_ne_nil _ _
  | cons first others inductionHypothesis =>
      unfold lines.go
      split
      · split
        · exact inductionHypothesis false
        · exact List.cons_ne_nil _ _
      · split
        · exact List.cons_ne_nil _ _
        · split <;> exact List.cons_ne_nil _ _

/-- Behind a carriage return a line feed ends no further line. -/
theorem lines_go_afterReturn (others : Text) :
    lines.go others true = lines.go (behindLineEnd (ofChar '\r') others) false := by
  unfold behindLineEnd
  cases others with
  | nil => rfl
  | cons second rest =>
      by_cases isFeed : second = ofChar '\n'
      · subst isFeed
        rfl
      · have notFeed : ¬ second.value = '\n'.toNat := fun values => isFeed (CodePoint.ext values)
        have behind : ¬ (ofChar '\r' = ofChar '\r' ∧
            (second :: rest).head? = some (ofChar '\n')) :=
          fun both => isFeed (Option.some.inj both.2)
        rw [if_neg behind]
        simp only [lines.go, if_neg notFeed]

/-- A line end is a line feed of the text with line feeds. -/
theorem join_lines_go_lineEnd {first : CodePoint} (isEnd : isLineEnd first = true) (others : Text) :
    join [ofChar '\n'] (lines.go (first :: others) false) =
      ofChar '\n' :: join [ofChar '\n'] (lines.go (behindLineEnd first others) false) := by
  have added : ∀ parts : List Text, parts ≠ [] →
      join [ofChar '\n'] ([] :: parts) = ofChar '\n' :: join [ofChar '\n'] parts := by
    intro parts nonempty
    obtain ⟨part, parts, rfl⟩ := List.exists_cons_of_ne_nil nonempty
    rfl
  obtain rfl | rfl := isLineEnd_iff.mp isEnd
  · rw [behindLineEnd_feed]
    exact added _ (lines_go_ne_nil _ _)
  · rw [← lines_go_afterReturn]
    exact added _ (lines_go_ne_nil _ _)

/-- Every other code point is kept. -/
theorem join_lines_go_plain {codePoint : CodePoint} (notEnd : isLineEnd codePoint = false)
    (others : Text) : join [ofChar '\n'] (lines.go (codePoint :: others) false) =
      codePoint :: join [ofChar '\n'] (lines.go others false) := by
  simp only [isLineEnd, Bool.or_eq_false_iff, beq_eq_false_iff_ne] at notEnd
  obtain ⟨line, more, isCons⟩ := List.exists_cons_of_ne_nil (lines_go_ne_nil others false)
  simp only [lines.go, if_neg notEnd.1, if_neg notEnd.2, isCons]
  cases more <;> rfl

/-- A text is related to its own text with line feeds. -/
theorem unifies_unifyLineEnds (text : Text) : Unifies text (unifyLineEnds text) := by
  unfold unifyLineEnds lines
  induction isLength : text.length using Nat.strongRecOn generalizing text with
  | ind length inductionHypothesis =>
      subst isLength
      cases text with
      | nil => exact .nil
      | cons first others =>
          cases isEnd : isLineEnd first with
          | false =>
              rw [join_lines_go_plain isEnd]
              exact .plain isEnd (inductionHypothesis _ (Nat.lt_succ_self _) others rfl)
          | true =>
              rw [join_lines_go_lineEnd isEnd]
              refine .lineEnd isEnd (inductionHypothesis _ ?_ _ rfl)
              exact Nat.lt_succ_of_le (length_behindLineEnd first others)

namespace Unifies

variable {left right : Text}

/-- Both texts end together. -/
theorem isEmpty_eq (unifies : Unifies left right) : left.isEmpty = right.isEmpty := by
  cases unifies <;> rfl

/-- The first code points are the same, or both begin a line end. -/
theorem head? (unifies : Unifies left right) : left.head? = right.head? ∨
    ∃ first, left.head? = some first ∧ isLineEnd first = true ∧
      right.head? = some (ofChar '\n') := by
  cases unifies with
  | nil => exact .inl rfl
  | plain notEnd rest => exact .inl rfl
  | lineEnd isEnd rest => exact .inr ⟨_, rfl, isEnd, rfl⟩

/-- Where line ends are not told apart, the first code points are not. -/
theorem head?_eq {α : Type} (unifies : Unifies left right) (test : Option CodePoint → α)
    (alike : ∀ first, isLineEnd first = true → test (some first) = test (some (ofChar '\n'))) :
    test left.head? = test right.head? := by
  obtain same | ⟨first, atLeft, isEnd, atRight⟩ := unifies.head?
  · rw [same]
  · rw [atLeft, atRight, alike first isEnd]

/-- A code point that ends no line is next in both texts or in neither. -/
theorem head?_eq_some_iff (unifies : Unifies left right) {codePoint : CodePoint}
    (notEnd : isLineEnd codePoint = false) :
    left.head? = some codePoint ↔ right.head? = some codePoint := by
  have differ {other : CodePoint} (isEnd : isLineEnd other = true) :
      some other ≠ some codePoint := by
    rintro ⟨⟩
    rw [notEnd] at isEnd
    cases isEnd
  obtain same | ⟨first, atLeft, isEnd, atRight⟩ := unifies.head?
  · rw [same]
  · rw [atLeft, atRight]
    exact iff_of_false (differ isEnd) (differ rfl)

/-- The first code points hold a line end in both texts or in neither. -/
theorem withinLine_take_iff (unifies : Unifies left right) (count : Nat) :
    WithinLine (left.take count) ↔ WithinLine (right.take count) := by
  induction count generalizing left right with
  | zero => exact Iff.rfl
  | succ count inductionHypothesis =>
      cases unifies with
      | nil => exact Iff.rfl
      | plain notEnd rest =>
          rw [List.take_succ_cons, List.take_succ_cons, WithinLine, WithinLine,
            List.forall_mem_cons, List.forall_mem_cons]
          exact and_congr_right fun _ => inductionHypothesis rest
      | lineEnd isEnd rest =>
          have ends {first : CodePoint} {others : Text} (isEnd : isLineEnd first = true) :
              ¬ WithinLine ((first :: others).take (count + 1)) := by
            intro within
            rw [within first (List.mem_cons_self ..)] at isEnd
            cases isEnd
          exact iff_of_false (ends isEnd) (ends rfl)

/-- Code points that are no line ends are taken off both texts. -/
theorem take_and_drop (unifies : Unifies left right) {count : Nat}
    (within : WithinLine (left.take count)) :
    left.take count = right.take count ∧ Unifies (left.drop count) (right.drop count) := by
  induction count generalizing left right with
  | zero => exact ⟨rfl, unifies⟩
  | succ count inductionHypothesis =>
      cases unifies with
      | nil => exact ⟨rfl, .nil⟩
      | plain notEnd rest =>
          obtain ⟨sameFront, others⟩ := inductionHypothesis rest
            fun codePoint mem => within codePoint (List.mem_cons_of_mem _ mem)
          exact ⟨congrArg (List.cons _) sameFront, others⟩
      | lineEnd isEnd rest =>
          rw [within _ (List.mem_cons_self ..)] at isEnd
          cases isEnd

/-- What begins both texts. -/
theorem isPrefixOf_eq (unifies : Unifies left right) {front : Text}
    (within : WithinLine front) :
    front.isPrefixOf left = front.isPrefixOf right := by
  induction front generalizing left right with
  | nil => simp
  | cons first others inductionHypothesis =>
      obtain ⟨notEnd, within⟩ := List.forall_mem_cons.mp within
      cases unifies with
      | nil => rfl
      | plain _ rest => rw [List.isPrefixOf, List.isPrefixOf, inductionHypothesis rest within]
      | lineEnd isEnd rest =>
          have differ {other : CodePoint} (isEnd : isLineEnd other = true) :
              (first == other) = false := by
            rw [beq_eq_false_iff_ne]
            rintro rfl
            rw [notEnd] at isEnd
            cases isEnd
          rw [List.isPrefixOf, List.isPrefixOf, differ isEnd, differ rfl]
          rfl

/-- What a class without line ends takes off the front of both texts. -/
theorem takeWhile_eq (unifies : Unifies left right) {admits : CodePoint → Bool}
    (plain : ∀ codePoint, admits codePoint = true → isLineEnd codePoint = false) :
    left.takeWhile admits = right.takeWhile admits := by
  have noEnd {codePoint : CodePoint} (isEnd : isLineEnd codePoint = true) :
      admits codePoint = false := by
    rw [Bool.eq_false_iff]
    intro admitted
    rw [plain codePoint admitted] at isEnd
    cases isEnd
  induction unifies with
  | nil => rfl
  | plain _ rest inductionHypothesis =>
      rw [List.takeWhile_cons, List.takeWhile_cons, inductionHypothesis]
  | lineEnd isEnd rest _ =>
      rw [List.takeWhile_cons, List.takeWhile_cons, noEnd isEnd, noEnd rfl]
      rfl

/-- What a class with all line ends leaves of both texts. -/
theorem dropWhile (unifies : Unifies left right) {admits : CodePoint → Bool}
    (all : ∀ codePoint, isLineEnd codePoint = true → admits codePoint = true) :
    Unifies (left.dropWhile admits) (right.dropWhile admits) := by
  induction unifies with
  | nil => exact .nil
  | @plain codePoint _ _ notEnd rest inductionHypothesis =>
      rw [List.dropWhile_cons, List.dropWhile_cons]
      split
      · exact inductionHypothesis
      · exact .plain notEnd rest
  | @lineEnd first others _ isEnd rest inductionHypothesis =>
      have behind : others.dropWhile admits = (behindLineEnd first others).dropWhile admits := by
        unfold behindLineEnd
        split
        next isFeed =>
          cases others with
          | nil => rfl
          | cons second others =>
              obtain rfl := Option.some.inj isFeed.2
              exact List.dropWhile_cons_of_pos (all _ rfl)
        · rfl
      rw [List.dropWhile_cons_of_pos (all _ isEnd), List.dropWhile_cons_of_pos (all _ rfl), behind]
      exact inductionHypothesis

end Unifies

end SchemaOrder.Text

namespace SchemaOrder.Cursor

open CodePoint (ofChar)
open Document (isLineEnd)
open Text (WithinLine)

/-- What two cursors have in front of them is the same but for its line ends. -/
def Unifies (left right : Cursor) : Prop :=
  left.rest.Unifies right.rest

/-- Two cursors have moved on by as many code points, none of which ends a line. -/
def Moves (left right next next' : Cursor) : Prop :=
  ∃ count, next = left.advance count ∧ next' = right.advance count ∧
    WithinLine (left.rest.take count)

variable {left right next next' : Cursor}

/-- A class takes off the rest what it takes while it goes along it. -/
theorem rest_skip (cursor : Cursor) (admits : CodePoint → Bool) :
    (cursor.skip admits).rest = cursor.rest.dropWhile admits := by
  have parts : cursor.rest.takeWhile admits ++ cursor.rest.dropWhile admits = cursor.rest :=
    List.takeWhile_append_dropWhile
  have dropped : (cursor.rest.takeWhile admits ++ cursor.rest.dropWhile admits).drop
      (cursor.rest.takeWhile admits).length = cursor.rest.dropWhile admits := List.drop_left
  rwa [parts] at dropped

namespace Moves

/-- Both cursors may stay where they are. -/
theorem refl (left right : Cursor) : Moves left right left right :=
  ⟨0, rfl, rfl, nofun⟩

/-- Both cursors may move on twice. -/
theorem trans {last last' : Cursor} (first : Moves left right next next')
    (second : Moves next next' last last') : Moves left right last last' := by
  obtain ⟨count, rfl, rfl, within⟩ := first
  obtain ⟨more, rfl, rfl, withinMore⟩ := second
  refine ⟨count + more, ?_, ?_, ?_⟩
  · simp [advance, Nat.add_assoc]
  · simp [advance, Nat.add_assoc]
  · rw [List.take_add]
    exact List.forall_mem_append.mpr ⟨within, withinMore⟩

/-- Cursors that moved on so still have the same in front of them. -/
theorem unifies (moves : Moves left right next next') (unifies : Unifies left right) :
    Unifies next next' := by
  obtain ⟨count, rfl, rfl, within⟩ := moves
  exact (unifies.take_and_drop within).2

/-- They have passed the same text. -/
theorem taken (moves : Moves left right next next') (unifies : Unifies left right) :
    left.rest.take (next.position - left.position) =
      right.rest.take (next'.position - right.position) := by
  obtain ⟨count, rfl, rfl, within⟩ := moves
  simpa [advance] using (unifies.take_and_drop within).1

/-- They have moved on, both of them or neither. -/
theorem position_eq_iff (moves : Moves left right next next') :
    next.position = left.position ↔ next'.position = right.position := by
  obtain ⟨count, rfl, rfl, within⟩ := moves
  simp [advance]

end Moves

namespace Unifies

variable (unifies : Unifies left right)
include unifies

/-- A character that ends no line stands at both cursors or at neither. -/
theorem startsWith_eq (character : Char) (notEnd : isLineEnd (ofChar character) = false) :
    left.startsWith character = right.startsWith character := by
  have test (cursor : Cursor) :
      cursor.startsWith character = decide (cursor.rest.head? = some (ofChar character)) := by
    obtain ⟨position, _ | ⟨first, others⟩⟩ := cursor <;> simp [startsWith]
  rw [test, test]
  refine unifies.head?_eq (fun first => decide (first = some (ofChar character))) ?_
  intro first isEnd
  have differ {other : CodePoint} (isEnd : isLineEnd other = true) : other ≠ ofChar character := by
    rintro rfl
    rw [notEnd] at isEnd
    cases isEnd
  simp [differ isEnd, differ (rfl : isLineEnd (ofChar '\n') = true)]

/-- So does a text without line ends. -/
theorem startsWithText_eq {text : Text} (within : WithinLine text) :
    left.startsWithText text = right.startsWithText text :=
  unifies.isPrefixOf_eq within

omit unifies in
/-- A text that stands at a cursor is what is taken from there. -/
theorem take_of_startsWithText {cursor : Cursor} {text : Text}
    (starts : cursor.startsWithText text = true) : cursor.rest.take text.length = text := by
  obtain ⟨others, isRest⟩ := List.isPrefixOf_iff_prefix.mp starts
  rw [← isRest, List.take_left]

omit unifies in
/-- Behind a text without line ends both cursors have moved on. -/
theorem moves_text {text : Text} (within : WithinLine text)
    (starts : left.startsWithText text = true) :
    Moves left right (left.advance text.length) (right.advance text.length) :=
  ⟨_, rfl, rfl, (take_of_startsWithText starts).symm ▸ within⟩

omit unifies in
/-- Behind a character that ends no line both cursors have moved on. -/
theorem moves_one (right : Cursor) {character : Char}
    (notEnd : isLineEnd (ofChar character) = false) (starts : left.startsWith character = true) :
    Moves left right (left.advance 1) (right.advance 1) := by
  refine ⟨1, rfl, rfl, ?_⟩
  obtain ⟨position, _ | ⟨first, others⟩⟩ := left
  · cases starts
  · obtain rfl : first = ofChar character := by simpa [startsWith] using starts
    exact List.forall_mem_singleton.mpr notEnd

/-- So they have behind the code points of a class without line ends. -/
theorem moves_skip {admits : CodePoint → Bool}
    (plain : ∀ codePoint, admits codePoint = true → isLineEnd codePoint = false) :
    Moves left right (left.skip admits) (right.skip admits) := by
  refine ⟨(left.rest.takeWhile admits).length, rfl, ?_, ?_⟩
  · rw [skip, ← unifies.takeWhile_eq plain]
  · intro codePoint mem
    have isFront : left.rest.take (left.rest.takeWhile admits).length =
        left.rest.takeWhile admits :=
      List.prefix_iff_eq_take.mp (List.takeWhile_prefix admits) |>.symm
    rw [isFront] at mem
    exact plain codePoint (List.mem_takeWhile_imp mem)

/-- Behind the code points of a class with all line ends, both cursors have the same in front of
them. -/
theorem skip {admits : CodePoint → Bool}
    (all : ∀ codePoint, isLineEnd codePoint = true → admits codePoint = true) :
    Unifies (left.skip admits) (right.skip admits) := by
  rw [Unifies, rest_skip, rest_skip]
  exact Text.Unifies.dropWhile unifies all

end Unifies

end SchemaOrder.Cursor
