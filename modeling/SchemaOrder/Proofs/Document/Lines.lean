import SchemaOrder.Text.Basic

/-!
# Texts and their lines

A text is cut at a separator and put together again, and a pattern in it is replaced from the
left. The theorems follow the text code point by code point.
-/

namespace SchemaOrder.Text

open CodePoint (ofChar)

variable {separator codePoint : CodePoint} {text first second pattern replacement : Text}

/-- The empty text is one part, which is empty. -/
@[simp] theorem splitOn_nil (separator : CodePoint) : splitOn separator [] = [[]] :=
  rfl

/-- A text always has a part. -/
theorem splitOn_ne_nil (separator : CodePoint) (text : Text) : splitOn separator text ≠ [] := by
  cases text with
  | nil => simp
  | cons head tail =>
      unfold splitOn
      split
      · simp
      · split <;> simp

/-- A separator ends a part. -/
theorem splitOn_separator (separator : CodePoint) (text : Text) :
    splitOn separator (separator :: text) = [] :: splitOn separator text := by
  obtain ⟨part, parts, isCons⟩ := List.exists_cons_of_ne_nil (splitOn_ne_nil separator text)
  simp [splitOn, isCons]

/-- Every other code point goes on with the first part. -/
theorem splitOn_cons {part : Text} {parts : List Text} (other : codePoint ≠ separator)
    (rest : splitOn separator text = part :: parts) :
    splitOn separator (codePoint :: text) = (codePoint :: part) :: parts := by
  simp [splitOn, rest, other]

/-- Of two texts one after the other, the last part of the first one and the first part of the
second one become one. -/
theorem splitOn_append {front parts : List Text} {last part : Text}
    (splitFirst : splitOn separator first = front ++ [last])
    (splitSecond : splitOn separator second = part :: parts) :
    splitOn separator (first ++ second) = front ++ (last ++ part) :: parts := by
  induction first generalizing front last with
  | nil =>
      cases front with
      | nil =>
          obtain rfl : [] = last := by simpa using splitFirst
          exact splitSecond
      | cons head tail => simp at splitFirst
  | cons head tail inductionHypothesis =>
      obtain ⟨inner, innerLast, isConcat⟩ : ∃ inner innerLast,
          splitOn separator tail = inner ++ [innerLast] :=
        ⟨_, _, (List.dropLast_concat_getLast (splitOn_ne_nil separator tail)).symm⟩
      have rest := inductionHypothesis isConcat
      by_cases same : head = separator
      · subst same
        rw [splitOn_separator, isConcat] at splitFirst
        rw [List.cons_append, splitOn_separator, rest]
        obtain ⟨rfl, rfl⟩ : front = [] :: inner ∧ last = innerLast := by
          have appended : ([] :: inner) ++ [innerLast] = front ++ [last] := splitFirst
          obtain ⟨fronts, lasts⟩ := List.append_inj' appended rfl
          exact ⟨fronts.symm, (List.singleton_inj.mp lasts).symm⟩
        rfl
      · cases inner with
        | nil =>
            rw [List.nil_append] at isConcat rest
            rw [splitOn_cons same isConcat] at splitFirst
            rw [List.cons_append, splitOn_cons same rest]
            have appended : [] ++ [head :: innerLast] = front ++ [last] := splitFirst
            obtain ⟨rfl, lasts⟩ := List.append_inj' appended rfl
            rw [← List.singleton_inj.mp lasts]
            rfl
        | cons part' inner =>
            rw [List.cons_append] at isConcat rest
            rw [splitOn_cons same isConcat] at splitFirst
            rw [List.cons_append, splitOn_cons same rest]
            have appended : ((head :: part') :: inner) ++ [innerLast] = front ++ [last] :=
              splitFirst
            obtain ⟨rfl, lasts⟩ := List.append_inj' appended rfl
            rw [← List.singleton_inj.mp lasts]
            rfl

/-- The parts, put together again, are the text. -/
theorem join_splitOn (separator : CodePoint) (text : Text) :
    join [separator] (splitOn separator text) = text := by
  induction text with
  | nil => rfl
  | cons head tail inductionHypothesis =>
      obtain ⟨part, parts, isCons⟩ := List.exists_cons_of_ne_nil (splitOn_ne_nil separator tail)
      rw [isCons] at inductionHypothesis
      by_cases same : head = separator
      · rw [same, splitOn_separator, isCons, join, inductionHypothesis]
        rfl
      · rw [splitOn_cons same isCons, ← inductionHypothesis]
        cases parts <;> simp [join]

/-- What stands in parts with separators between them stands in a part or in the separator. -/
theorem mem_join {separator : Text} {parts : List Text} {codePoint : CodePoint}
    (mem : codePoint ∈ join separator parts) :
    codePoint ∈ separator ∨ ∃ part ∈ parts, codePoint ∈ part := by
  induction parts with
  | nil => cases mem
  | cons first others inductionHypothesis =>
      cases others with
      | nil => exact .inr ⟨first, by simp, mem⟩
      | cons second others =>
          rw [join, List.mem_append, List.mem_append] at mem
          rcases mem with (inFirst | inSeparator) | inOthers
          · exact .inr ⟨first, by simp, inFirst⟩
          · exact .inl inSeparator
          · rcases inductionHypothesis inOthers with inSeparator | ⟨part, partMem, inPart⟩
            · exact .inl inSeparator
            · exact .inr ⟨part, List.mem_cons_of_mem _ partMem, inPart⟩

/-- Only the separator cuts a text. -/
theorem splitOn_eq_singleton_iff : splitOn separator text = [text] ↔ separator ∉ text := by
  induction text with
  | nil => simp
  | cons head tail inductionHypothesis =>
      obtain ⟨part, parts, isCons⟩ := List.exists_cons_of_ne_nil (splitOn_ne_nil separator tail)
      by_cases same : head = separator
      · subst same
        simp [splitOn_separator]
      · rw [splitOn_cons same isCons]
        rw [isCons] at inductionHypothesis
        simp only [List.cons.injEq, true_and, List.mem_cons, not_or] at inductionHypothesis ⊢
        rw [inductionHypothesis]
        exact ⟨fun notMem => ⟨Ne.symm same, notMem⟩, fun both => both.2⟩

/-- A text in one part has no separator. -/
theorem length_splitOn_le_one_iff : (splitOn separator text).length ≤ 1 ↔ separator ∉ text := by
  rw [← splitOn_eq_singleton_iff]
  refine ⟨fun short => ?_, fun single => by simp [single]⟩
  obtain ⟨part, parts, isCons⟩ := List.exists_cons_of_ne_nil (splitOn_ne_nil separator text)
  obtain rfl : parts = [] := by simpa [isCons] using short
  have whole := join_splitOn separator text
  rw [isCons] at whole
  rw [isCons, ← whole]
  rfl

/-- A separator between two texts cuts them apart. -/
theorem splitOn_append_separator (first second : Text) :
    splitOn separator (first ++ separator :: second) =
      splitOn separator first ++ splitOn separator second := by
  obtain ⟨front, last, isConcat⟩ : ∃ front last, splitOn separator first = front ++ [last] :=
    ⟨_, _, (List.dropLast_concat_getLast (splitOn_ne_nil separator first)).symm⟩
  rw [splitOn_append isConcat (splitOn_separator separator second), isConcat, List.append_nil,
    List.append_assoc, List.singleton_append]

/-- Parts without separators, put together, are cut into these parts again. -/
theorem splitOn_join {part : Text} {parts : List Text}
    (whole : ∀ each ∈ part :: parts, separator ∉ each) :
    splitOn separator (join [separator] (part :: parts)) = part :: parts := by
  induction parts generalizing part with
  | nil => exact splitOn_eq_singleton_iff.mpr (whole part (by simp))
  | cons second others inductionHypothesis =>
      obtain ⟨notInPart, wholeOthers⟩ := List.forall_mem_cons.mp whole
      rw [join, List.append_assoc, List.singleton_append, splitOn_append_separator,
        splitOn_eq_singleton_iff.mpr notInPart, inductionHypothesis wholeOthers]
      rfl

/-- No part has a separator. -/
theorem notMem_of_mem_splitOn {part : Text} (mem : part ∈ splitOn separator text) :
    separator ∉ part := by
  induction text generalizing part with
  | nil =>
      rw [List.mem_singleton.mp mem]
      exact List.not_mem_nil
  | cons head tail inductionHypothesis =>
      obtain ⟨first, others, isCons⟩ := List.exists_cons_of_ne_nil (splitOn_ne_nil separator tail)
      by_cases same : head = separator
      · rw [same, splitOn_separator] at mem
        rcases List.mem_cons.mp mem with rfl | later
        · exact List.not_mem_nil
        · exact inductionHypothesis later
      · rw [isCons, List.forall_mem_cons] at inductionHypothesis
        rw [splitOn_cons same isCons] at mem
        rcases List.mem_cons.mp mem with rfl | later
        · exact List.not_mem_cons_of_ne_of_not_mem (Ne.symm same) inductionHypothesis.1
        · exact inductionHypothesis.2 _ later

/-- Code points that were written already are passed over. -/
theorem replaceAll_go_skip (text : Text) (skipped : Nat) :
    replaceAll.go pattern replacement text skipped =
      replaceAll.go pattern replacement (text.drop skipped) 0 := by
  induction text generalizing skipped with
  | nil => simp [replaceAll.go]
  | cons head tail inductionHypothesis =>
      cases skipped with
      | zero => rfl
      | succ skipped => exact inductionHypothesis skipped

/-- There is nothing to replace in the empty text. -/
@[simp] theorem replaceAll_nil : replaceAll [] pattern replacement = [] :=
  rfl

/-- A pattern at the beginning is replaced. -/
theorem replaceAll_prefix (nonempty : pattern ≠ []) (rest : Text) :
    replaceAll (pattern ++ rest) pattern replacement =
      replacement ++ replaceAll rest pattern replacement := by
  obtain ⟨head, tail, rfl⟩ := List.exists_cons_of_ne_nil nonempty
  have isPrefix : (head :: tail).isPrefixOf (head :: (tail ++ rest)) = true := by simp
  simp only [replaceAll, List.cons_append, replaceAll.go, isPrefix, List.isEmpty_cons,
    Bool.not_false, Bool.and_self, if_true]
  rw [replaceAll_go_skip]
  simp

/-- Where no pattern begins, a code point is kept. -/
theorem replaceAll_cons (noPrefix : pattern.isPrefixOf (codePoint :: text) = false) :
    replaceAll (codePoint :: text) pattern replacement =
      codePoint :: replaceAll text pattern replacement := by
  simp [replaceAll, replaceAll.go, noPrefix]

/-- Replacing one code point. -/
theorem replaceAll_singleton_self (rest : Text) :
    replaceAll (codePoint :: rest) [codePoint] replacement =
      replacement ++ replaceAll rest [codePoint] replacement :=
  replaceAll_prefix (List.cons_ne_nil _ _) rest

/-- Another code point is kept. -/
theorem replaceAll_singleton_other {other : CodePoint} (differ : other ≠ codePoint) (rest : Text) :
    replaceAll (other :: rest) [codePoint] replacement =
      other :: replaceAll rest [codePoint] replacement :=
  replaceAll_cons (by simp [List.isPrefixOf, Ne.symm differ])

/-- One code point is replaced in two texts apart. -/
theorem replaceAll_singleton_append (first second : Text) :
    replaceAll (first ++ second) [codePoint] replacement =
      replaceAll first [codePoint] replacement ++ replaceAll second [codePoint] replacement := by
  induction first with
  | nil => rfl
  | cons head tail inductionHypothesis =>
      by_cases same : head = codePoint
      · subst same
        rw [List.cons_append, replaceAll_singleton_self, replaceAll_singleton_self,
          inductionHypothesis, List.append_assoc]
      · rw [List.cons_append, replaceAll_singleton_other same, replaceAll_singleton_other same,
          inductionHypothesis]
        rfl

/-- A text without the code point stays as it is. -/
theorem replaceAll_singleton_of_notMem (notMem : codePoint ∉ text) :
    replaceAll text [codePoint] replacement = text := by
  induction text with
  | nil => rfl
  | cons head tail inductionHypothesis =>
      simp only [List.mem_cons, not_or] at notMem
      rw [replaceAll_singleton_other (Ne.symm notMem.1), inductionHypothesis notMem.2]

/-- A replaced text is made of code points of the text and of what it was replaced with. -/
theorem mem_or_of_mem_replaceAll_singleton {other : CodePoint}
    (mem : other ∈ replaceAll text [codePoint] replacement) :
    other ∈ text ∨ other ∈ replacement := by
  induction text with
  | nil => exact .inl mem
  | cons head tail inductionHypothesis =>
      have later : other ∈ replaceAll tail [codePoint] replacement →
          other ∈ head :: tail ∨ other ∈ replacement := fun inTail =>
        (inductionHypothesis inTail).imp_left (List.mem_cons_of_mem _)
      by_cases same : head = codePoint
      · subst same
        rw [replaceAll_singleton_self, List.mem_append] at mem
        exact mem.elim .inr later
      · rw [replaceAll_singleton_other same, List.mem_cons] at mem
        rcases mem with rfl | inTail
        · exact .inl (List.mem_cons_self ..)
        · exact later inTail

/-- What is written behind a code point does not make another text begin there. -/
theorem isPrefixOf_replaceAll {start : Text} (notMem : codePoint ∉ start) (text : Text) :
    start.isPrefixOf (replaceAll text [codePoint] (codePoint :: replacement)) =
      start.isPrefixOf text := by
  induction start generalizing text with
  | nil => rfl
  | cons first others inductionHypothesis =>
      simp only [List.mem_cons, not_or] at notMem
      cases text with
      | nil => rfl
      | cons head tail =>
          by_cases same : head = codePoint
          · subst same
            have differ : (first == head) = false := by simpa using Ne.symm notMem.1
            simp [replaceAll_singleton_self, List.isPrefixOf, differ]
          · rw [replaceAll_singleton_other same]
            simp only [List.isPrefixOf, inductionHypothesis notMem.2]

/-- A separator that is written with something behind it still cuts a text in the same places. -/
theorem splitOn_replaceAll (notMem : separator ∉ replacement) {part : Text} {parts : List Text}
    (split : splitOn separator text = part :: parts) :
    splitOn separator (replaceAll text [separator] (separator :: replacement)) =
      part :: parts.map (replacement ++ ·) := by
  induction text generalizing part parts with
  | nil =>
      obtain ⟨rfl, rfl⟩ : [] = part ∧ [] = parts := by simpa using split
      rfl
  | cons head tail inductionHypothesis =>
      obtain ⟨inner, others, isCons⟩ := List.exists_cons_of_ne_nil (splitOn_ne_nil separator tail)
      have rest := inductionHypothesis isCons
      by_cases same : head = separator
      · subst same
        rw [splitOn_separator, isCons] at split
        obtain ⟨rfl, rfl⟩ := List.cons.inj split
        have single : splitOn head replacement = [] ++ [replacement] :=
          splitOn_eq_singleton_iff.mpr notMem
        rw [replaceAll_singleton_self, List.cons_append, splitOn_separator,
          splitOn_append single rest]
        rfl
      · rw [splitOn_cons same isCons] at split
        obtain ⟨rfl, rfl⟩ := List.cons.inj split
        rw [replaceAll_singleton_other same, splitOn_cons same rest]

/-- Without carriage returns, lines end at line feeds alone. -/
theorem lines_eq_splitOn (noReturn : ofChar '\r' ∉ text) :
    lines text = splitOn (ofChar '\n') text := by
  have walk : lines.go text false = splitOn (ofChar '\n') text := by
    induction text with
    | nil => rfl
    | cons head tail inductionHypothesis =>
        simp only [List.mem_cons, not_or] at noReturn
        have rest := inductionHypothesis noReturn.2
        obtain ⟨part, parts, isCons⟩ :=
          List.exists_cons_of_ne_nil (splitOn_ne_nil (ofChar '\n') tail)
        have notReturn : ¬ head.value = '\r'.toNat :=
          fun same => noReturn.1 (CodePoint.ext same.symm)
        by_cases same : head = ofChar '\n'
        · subst same
          rw [splitOn_separator, ← rest]
          rfl
        · have notFeed : ¬ head.value = '\n'.toNat := fun values => same (CodePoint.ext values)
          rw [splitOn_cons same isCons]
          simp only [lines.go, if_neg notFeed, if_neg notReturn, rest, isCons]
  exact walk

end SchemaOrder.Text
