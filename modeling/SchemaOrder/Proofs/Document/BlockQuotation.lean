import SchemaOrder.Document.Block
import SchemaOrder.Proofs.Document.Cutting
import SchemaOrder.Proofs.Document.Lines
import SchemaOrder.Schema.Printer

/-!
# Texts in blocks

A text that fits a block is written between three quotation marks, on lines that are all
indented, and is read back as it was: the blanks that were put before its lines are those that
all lines share, and the lines that were put around it are blank.
-/

namespace SchemaOrder.Document

open CodePoint (ofChar)
open Text (splitOn)

/-- A line that begins with something other than a blank. -/
def BeginsFlush (line : Text) : Prop :=
  ∃ head ∈ line.head?, head.isBlank = false

/-- What is known of the lines of a text that passed the check, where the check began in the given
state in the middle of its first line. -/
structure Passed (state final : BlockCheck) (line : Text) (others : List Text) : Prop where
  firstLine : state.isEmptyLine = true → state.seenLine = false → others ≠ [] →
    isBlankLine line = false
  lastLine : final.isEmptyLine = false → ∀ last ∈ (line :: others).getLast?,
    isBlankLine last = false ∨ others = [] ∧ state.isEmptyLine = false
  seenLine : final.seenLine = (state.seenLine || !others.isEmpty)
  flushLine :
    (state.isEmptyLine = false → state.hasIndent = false → state.hasCommonIndent = false) →
    final.hasCommonIndent = false → state.hasCommonIndent = false ∨
      (state.isEmptyLine = true ∧ state.hasIndent = false ∧ BeginsFlush line) ∨
      ∃ other ∈ others, BeginsFlush other

/-- A text that passes the check has no carriage returns. -/
theorem noReturn_of_checkBlock {state final : BlockCheck} {text : Text}
    (checked : checkBlock state text = some final) : ofChar '\r' ∉ text := by
  induction text generalizing state with
  | nil => exact List.not_mem_nil
  | cons head tail inductionHypothesis =>
      simp only [checkBlock] at checked
      split at checked
      · rename_i isFeed
        split at checked
        · cases checked
        · refine List.not_mem_cons_of_ne_of_not_mem ?_ (inductionHypothesis checked)
          rintro rfl
          cases isFeed
      · split at checked
        · rename_i isBlank
          refine List.not_mem_cons_of_ne_of_not_mem ?_ (inductionHypothesis checked)
          rintro rfl
          cases isBlank
        · split at checked
          · cases checked
          · rename_i notControl
            refine List.not_mem_cons_of_ne_of_not_mem ?_ (inductionHypothesis checked)
            rintro rfl
            exact notControl (by decide)

namespace Passed

variable {state final : BlockCheck} {inner : Text} {later : List Text}

/-- A line feed ends a line that was not blank, if it was the first one. -/
theorem lineFeed
    (passed : Passed ⟨true, false, state.hasCommonIndent, true⟩ final inner later)
    (begins : (state.isEmptyLine && !state.seenLine) = false) :
    Passed state final [] (inner :: later) := by
  refine ⟨fun empty unseen _ => ?_, ?_, ?_, ?_⟩
  · rw [empty, unseen] at begins
    cases begins
  · intro full last mem
    rw [List.getLast?_cons_cons] at mem
    rcases passed.lastLine full last mem with notBlank | ⟨-, impossible⟩
    · exact .inl notBlank
    · cases impossible
  · simp [passed.seenLine]
  · intro _ none
    rcases passed.flushLine nofun none with already | ⟨-, -, flush⟩ | ⟨other, mem, flush⟩
    · exact .inl already
    · exact .inr (.inr ⟨inner, by simp, flush⟩)
    · exact .inr (.inr ⟨other, by simp [mem], flush⟩)

/-- A blank indents a line that it begins, and leaves a blank line blank. -/
theorem blank {head : CodePoint} (isBlank : head.isBlank = true)
    (passed : Passed { state with hasIndent := state.hasIndent || state.isEmptyLine } final inner
      later) :
    Passed state final (head :: inner) later := by
  have sameBlank : isBlankLine (head :: inner) = isBlankLine inner := by
    simp [isBlankLine, isBlank]
  refine ⟨fun empty unseen more => ?_, ?_, passed.seenLine, ?_⟩
  · rw [sameBlank]
    exact passed.firstLine empty unseen more
  · intro full last mem
    cases later with
    | nil =>
        obtain rfl : head :: inner = last := by simpa using mem
        rw [sameBlank]
        exact passed.lastLine full inner rfl
    | cons next later =>
        rw [List.getLast?_cons_cons] at mem
        exact passed.lastLine full last (by rwa [List.getLast?_cons_cons])
  · intro invariant none
    have indented : state.isEmptyLine = false →
        (state.hasIndent || state.isEmptyLine) = false → state.hasCommonIndent = false := by
      intro full noIndent
      simp only [Bool.or_eq_false_iff] at noIndent
      exact invariant full noIndent.1
    rcases passed.flushLine indented none with already | ⟨empty, noIndent, -⟩ | flush
    · exact .inl already
    · have empty : state.isEmptyLine = true := empty
      simp [empty] at noIndent
    · exact .inr (.inr flush)

/-- Anything else makes a line that is not blank, and one that begins flush if nothing was before
it on the line. -/
theorem visible {head : CodePoint} (notBlank : head.isBlank = false)
    (passed : Passed { state with
      hasCommonIndent := state.hasCommonIndent && state.hasIndent, isEmptyLine := false }
      final inner later) :
    Passed state final (head :: inner) later := by
  have notBlankLine : isBlankLine (head :: inner) = false := by
    simp [isBlankLine, notBlank]
  refine ⟨fun _ _ _ => notBlankLine, ?_, passed.seenLine, ?_⟩
  · intro full last mem
    cases later with
    | nil =>
        obtain rfl : head :: inner = last := by simpa using mem
        exact .inl notBlankLine
    | cons next later =>
        rw [List.getLast?_cons_cons] at mem
        rcases passed.lastLine full last (by rwa [List.getLast?_cons_cons]) with
          holds | ⟨impossible, -⟩
        · exact .inl holds
        · cases impossible
  · intro invariant none
    have indented : (false : Bool) = false → state.hasIndent = false →
        (state.hasCommonIndent && state.hasIndent) = false := by
      intro _ noIndent
      simp [noIndent]
    rcases passed.flushLine indented none with already | ⟨impossible, -⟩ | flush
    · rcases Bool.and_eq_false_iff.mp already with notCommon | noIndent
      · exact .inl notCommon
      cases empty : state.isEmptyLine with
      | false => exact .inl (invariant empty noIndent)
      | true => exact .inr (.inl ⟨rfl, noIndent, head, rfl, notBlank⟩)
    · cases impossible
    · exact .inr (.inr flush)

end Passed

/-- The lines of a text that passes the check. -/
theorem passed_of_checkBlock {state final : BlockCheck} {text line : Text} {others : List Text}
    (checked : checkBlock state text = some final)
    (split : splitOn (ofChar '\n') text = line :: others) : Passed state final line others := by
  induction text generalizing state line others with
  | nil =>
      obtain ⟨rfl, rfl⟩ : [] = line ∧ [] = others := by simpa [splitOn] using split
      obtain rfl : state = final := by simpa [checkBlock] using checked
      refine ⟨fun _ _ more => absurd rfl more, fun full last mem => .inr ⟨rfl, full⟩, by simp,
        fun _ none => .inl none⟩
  | cons head tail inductionHypothesis =>
      obtain ⟨inner, later, isCons⟩ :=
        List.exists_cons_of_ne_nil (Text.splitOn_ne_nil (ofChar '\n') tail)
      simp only [checkBlock] at checked
      split at checked
      · next isFeed =>
          obtain rfl : head = ofChar '\n' := CodePoint.ext isFeed
          rw [Text.splitOn_separator, isCons] at split
          obtain ⟨rfl, rfl⟩ := List.cons.inj split
          split at checked
          · cases checked
          · next begins =>
              exact (inductionHypothesis checked isCons).lineFeed (Bool.eq_false_iff.mpr begins)
      · next notFeed =>
          have differ : head ≠ ofChar '\n' := fun same => notFeed (congrArg CodePoint.value same)
          rw [Text.splitOn_cons differ isCons] at split
          obtain ⟨rfl, rfl⟩ := List.cons.inj split
          split at checked
          · next isBlank => exact (inductionHypothesis checked isCons).blank isBlank
          next notBlank =>
          split at checked
          · cases checked
          · exact (inductionHypothesis checked isCons).visible (Bool.eq_false_iff.mpr notBlank)

/-- What is known of the lines of a text that fits a block. -/
structure FittingLines (lines : List Text) : Prop where
  first : ∀ line ∈ lines.head?, isBlankLine line = false
  last : ∀ line ∈ lines.getLast?, isBlankLine line = false
  flush : 1 < lines.length → ∃ line ∈ lines, BeginsFlush line

/-- A text that fits a block has no carriage returns, and fitting lines if it has anything. -/
theorem fittingLines_of_fitsBlock {content : Text} (fits : fitsBlock content = true) :
    ofChar '\r' ∉ content ∧
      (content ≠ [] → FittingLines (splitOn (ofChar '\n') content)) := by
  cases content with
  | nil => exact ⟨List.not_mem_nil, fun more => absurd rfl more⟩
  | cons head tail =>
      unfold fitsBlock at fits
      cases checked : checkBlock ⟨true, false, true, false⟩ (head :: tail) with
      | none => simp [checked] at fits
      | some final =>
          simp only [checked, List.isEmpty_cons, Bool.false_or, Bool.and_eq_true,
            Bool.not_eq_true'] at fits
          obtain ⟨full, notCommon⟩ := fits
          refine ⟨noReturn_of_checkBlock checked, fun _ => ?_⟩
          obtain ⟨line, others, isCons⟩ :=
            List.exists_cons_of_ne_nil (Text.splitOn_ne_nil (ofChar '\n') (head :: tail))
          have passed := passed_of_checkBlock checked isCons
          rw [isCons]
          have lastBlank : ∀ last ∈ (line :: others).getLast?, isBlankLine last = false := by
            intro last mem
            rcases passed.lastLine full last mem with holds | ⟨-, impossible⟩
            · exact holds
            · cases impossible
          refine ⟨?_, lastBlank, ?_⟩
          · rintro first ⟨⟩
            cases others with
            | nil => exact lastBlank line rfl
            | cons next later => exact passed.firstLine rfl rfl (List.cons_ne_nil _ _)
          · intro several
            have seen : final.seenLine = true := by
              cases others with
              | nil => simp at several
              | cons next later => simp [passed.seenLine]
            have none : final.hasCommonIndent = false := by simpa [seen] using notCommon
            rcases passed.flushLine nofun none with impossible | ⟨-, -, flush⟩ | ⟨other, mem, flush⟩
            · cases impossible
            · exact ⟨line, by simp, flush⟩
            · exact ⟨other, by simp [mem], flush⟩

variable {indent : Text}

/-- Blank lines around lines are taken away. -/
theorem trimBlankLines_around {before lines after : List Text} (nonempty : lines ≠ [])
    (first : ∀ line ∈ lines.head?, isBlankLine line = false)
    (last : ∀ line ∈ lines.getLast?, isBlankLine line = false)
    (blankBefore : ∀ line ∈ before, isBlankLine line = true)
    (blankAfter : ∀ line ∈ after, isBlankLine line = true) :
    trimBlankLines (before ++ lines ++ after) = lines := by
  have fromFront : (before ++ (lines ++ after)).dropWhile isBlankLine = lines ++ after := by
    rw [List.dropWhile_append_of_pos blankBefore]
    obtain ⟨head, tail, rfl⟩ := List.exists_cons_of_ne_nil nonempty
    simp [first head rfl]
  have fromBack : (after.reverse ++ lines.reverse).dropWhile isBlankLine = lines.reverse := by
    rw [List.dropWhile_append_of_pos (by simpa using blankAfter)]
    have notBlank : ∀ line ∈ lines.reverse.head?, isBlankLine line = false := by
      rwa [List.head?_reverse]
    cases isCons : lines.reverse with
    | nil => rfl
    | cons head tail =>
        rw [isCons] at notBlank
        simp [notBlank head rfl]
  simp only [trimBlankLines, List.append_assoc, fromFront, List.reverse_append, fromBack,
    List.reverse_reverse]

/-- Blanks before a line indent it further and leave it blank if it is. -/
theorem indentation_append (blank : ∀ codePoint ∈ indent, codePoint.isBlank = true) (line : Text) :
    indentation (indent ++ line) = indent.length + indentation line := by
  simp [indentation, List.takeWhile_append_of_pos blank]

/-- A line is as blank behind more blanks as it is alone. -/
theorem isBlankLine_append (blank : ∀ codePoint ∈ indent, codePoint.isBlank = true) (line : Text) :
    isBlankLine (indent ++ line) = isBlankLine line := by
  have whole : indent.all CodePoint.isBlank = true := List.all_eq_true.mpr blank
  simp [isBlankLine, List.all_append, whole]

/-- A line that begins flush is not blank, and is not indented. -/
theorem BeginsFlush.facts {line : Text} (flush : BeginsFlush line) :
    isBlankLine line = false ∧ indentation line = 0 := by
  obtain ⟨head, isHead, notBlank⟩ := flush
  cases line with
  | nil => cases isHead
  | cons first others =>
      obtain rfl : first = head := by simpa using isHead
      exact ⟨by simp [isBlankLine, notBlank], by simp [indentation, notBlank]⟩

/-- The blanks that were put before all lines are what these have in common, if one of the lines
began flush. -/
theorem commonIndentation_indented (blank : ∀ codePoint ∈ indent, codePoint.isBlank = true)
    {lines : List Text} (flush : ∃ line ∈ lines, BeginsFlush line) :
    commonIndentation (lines.map (indent ++ ·)) = some indent.length := by
  obtain ⟨line, mem, begins⟩ := flush
  obtain ⟨notBlank, atZero⟩ := begins.facts
  unfold commonIndentation
  refine List.min?_eq_some_iff.mpr ⟨?_, ?_⟩
  · refine List.mem_map.mpr ⟨indent ++ line, ?_, ?_⟩
    · simp [isBlankLine_append blank, notBlank]
      exact mem
    · rw [indentation_append blank, atZero, Nat.add_zero]
  · intro width widthMem
    obtain ⟨indented, indentedMem, rfl⟩ := List.mem_map.mp widthMem
    obtain ⟨other, -, rfl⟩ := List.mem_map.mp (List.mem_of_mem_filter indentedMem)
    rw [indentation_append blank]
    exact Nat.le_add_right _ _

/-- Fitting lines that were indented, between blank lines, are what they were. -/
theorem dedent_indented (blank : ∀ codePoint ∈ indent, codePoint.isBlank = true)
    {lines : List Text} (nonempty : lines ≠ []) (fitting : FittingLines lines)
    (flush : ∃ line ∈ lines, BeginsFlush line) :
    dedent ([] :: (lines ++ [[]]).map (indent ++ ·)) = lines := by
  have kept :
      ((lines ++ [[]]).map (indent ++ ·)).map (List.drop indent.length) = lines ++ [[]] := by
    simp [Function.comp_def]
  have flush' : ∃ line ∈ lines ++ [[]], BeginsFlush line := by
    obtain ⟨line, mem, begins⟩ := flush
    exact ⟨line, by simp [mem], begins⟩
  simp only [dedent, commonIndentation_indented blank flush', kept]
  have blankLine : ∀ line ∈ [([] : Text)], isBlankLine line = true := by simp [isBlankLine]
  exact trimBlankLines_around nonempty fitting.first fitting.last blankLine blankLine

/-- The marks around a block. -/
def blockMarks : Text :=
  [ofChar '"', ofChar '"', ofChar '"']

/-- A text with the marks in it escaped. -/
def escapeMarks (text : Text) : Text :=
  text.replaceAll blockMarks (ofChar '\\' :: blockMarks)

/-- Escaped marks stand for marks. -/
theorem escapeMarks_append (rest : Text) :
    escapeMarks (blockMarks ++ rest) = ofChar '\\' :: blockMarks ++ escapeMarks rest :=
  Text.replaceAll_prefix (List.cons_ne_nil _ _) rest

/-- What begins no marks is kept. -/
theorem escapeMarks_cons {codePoint : CodePoint} {text : Text}
    (noMarks : blockMarks.isPrefixOf (codePoint :: text) = false) :
    escapeMarks (codePoint :: text) = codePoint :: escapeMarks text :=
  Text.replaceAll_cons noMarks

/-- Marks begin with a quotation mark. -/
theorem noMarks_of_ne {codePoint : CodePoint} (differ : codePoint ≠ ofChar '"') (text : Text) :
    blockMarks.isPrefixOf (codePoint :: text) = false := by
  simp [blockMarks, List.isPrefixOf, Ne.symm differ]

/-- A text that ends in neither a quotation mark nor a backslash. -/
def EndsSafely (text : Text) : Prop :=
  ∀ last ∈ text.getLast?, last ≠ ofChar '"' ∧ last ≠ ofChar '\\'

/-- What ends a text that ends safely does so itself. -/
theorem EndsSafely.of_append {first second : Text} (safe : EndsSafely (first ++ second)) :
    EndsSafely second := by
  cases second with
  | nil => exact nofun
  | cons head tail =>
      intro last mem
      exact safe last (by simp [List.getLast?_append, Option.mem_def.mp mem])

/-- So does the text without its first code point. -/
theorem EndsSafely.tail {codePoint : CodePoint} {text : Text}
    (safe : EndsSafely (codePoint :: text)) : EndsSafely text :=
  EndsSafely.of_append (show EndsSafely ([codePoint] ++ text) from safe)

/-- The marks that close a block are not read too early: what was escaped begins no marks unless
it was empty. -/
theorem noMarks_escaped {content : Text} (nonempty : content ≠ []) (safe : EndsSafely content)
    (rest : Text) :
    blockMarks.isPrefixOf (escapeMarks content ++ (blockMarks ++ rest)) = false := by
  by_cases marked : blockMarks.isPrefixOf content
  · obtain ⟨others, rfl⟩ := List.isPrefixOf_iff_prefix.mp marked
    rw [escapeMarks_append]
    exact noMarks_of_ne (by decide) _
  · have noMarks := Bool.eq_false_iff.mpr marked
    match content, nonempty with
    | [first], _ =>
        have differ := (safe first rfl).1
        rw [escapeMarks_cons noMarks]
        exact noMarks_of_ne differ _
    | [first, second], _ =>
        have differ := (safe second rfl).1
        rw [escapeMarks_cons noMarks, escapeMarks_cons (noMarks_of_ne differ _)]
        simp [blockMarks, List.isPrefixOf, Ne.symm differ]
    | first :: second :: third :: others, _ =>
        rw [escapeMarks_cons noMarks]
        by_cases isFirst : first = ofChar '"'
        · by_cases isSecond : second = ofChar '"'
          · have differ : third ≠ ofChar '"' := by
              rintro rfl
              simp [blockMarks, List.isPrefixOf, isFirst, isSecond] at noMarks
            have noMarks' : blockMarks.isPrefixOf (second :: third :: others) = false := by
              simp [blockMarks, List.isPrefixOf, Ne.symm differ]
            rw [escapeMarks_cons noMarks', escapeMarks_cons (noMarks_of_ne differ _)]
            simp [blockMarks, List.isPrefixOf, Ne.symm differ]
          · rw [escapeMarks_cons (noMarks_of_ne isSecond _)]
            simp [blockMarks, List.isPrefixOf, Ne.symm isSecond]
        · exact noMarks_of_ne isFirst _

/-- What is behind a surrogate in an escaped text makes a pair with it only if it stood there. -/
theorem characterLength_escaped {codePoint : CodePoint} (content rest : Text)
    (isSurrogate : codePoint.isSurrogate = true) :
    characterLength (codePoint :: (escapeMarks content ++ (blockMarks ++ rest))) = 0 ∨
      ∃ second later, content = second :: later ∧ second.isLowSurrogate = true ∧
        escapeMarks content = second :: escapeMarks later ∧
        characterLength (codePoint :: (escapeMarks content ++ (blockMarks ++ rest))) = 2 := by
  have notLow : ∀ other : CodePoint, other.isLowSurrogate = false → ∀ tail : Text,
      characterLength (codePoint :: other :: tail) = 0 := by
    intro other notLow tail
    simp [characterLength, isSurrogate, notLow]
  by_cases marked : blockMarks.isPrefixOf content
  · obtain ⟨others, rfl⟩ := List.isPrefixOf_iff_prefix.mp marked
    rw [escapeMarks_append]
    exact .inl (notLow _ (by decide) _)
  · cases content with
    | nil => exact .inl (notLow _ (by decide) _)
    | cons second later =>
        rw [escapeMarks_cons (Bool.eq_false_iff.mpr marked)]
        by_cases isPair : codePoint.isHighSurrogate && second.isLowSurrogate
        · have low := isPair
          rw [Bool.and_eq_true] at low
          exact .inr
            ⟨second, later, rfl, low.2, rfl, by simp [characterLength, isSurrogate, isPair]⟩
        · exact .inl (by simp [characterLength, isSurrogate, isPair])

/-- Code points that do not end a line go on with the last line. -/
theorem splitOn_append_line {done more line : Text} {lines : List Text}
    (soFar : splitOn (ofChar '\n') done = lines.reverse ++ [line.reverse])
    (noFeed : ofChar '\n' ∉ more) :
    splitOn (ofChar '\n') (done ++ more) = lines.reverse ++ [(more.reverse ++ line).reverse] := by
  rw [Text.splitOn_append soFar (Text.splitOn_eq_singleton_iff.mpr noFeed)]
  simp

/-- An escaped text does not begin with escaped marks where the text begins with none to escape. -/
theorem noEscape_escaped {codePoint : CodePoint} {others : Text}
    (safe : EndsSafely (codePoint :: others)) (rest : Text) (position : Nat) :
    Cursor.startsWithText
      ⟨position, codePoint :: (escapeMarks others ++ (blockMarks ++ rest))⟩ "\\\"\"\"" = false := by
  by_cases isBackslash : codePoint = ofChar '\\'
  · have nonempty : others ≠ [] := by
      rintro rfl
      exact (safe codePoint rfl).2 isBackslash
    have behind := noMarks_escaped nonempty safe.tail rest
    simpa [Cursor.startsWithText, Text.ofString, List.isPrefixOf, isBackslash, blockMarks]
      using behind
  · exact Cuts.startsWithText_cons isBackslash

/-- What reading a text in a block does at a code point that begins neither marks, nor escaped
marks, nor a line end of two characters. -/
theorem readBlockInside_cons {fuel start position : Nat} {codePoint : CodePoint} {rest : Text}
    (lines : List Text) (line : Text)
    (noClose : Cursor.startsWithText ⟨position, codePoint :: rest⟩ "\"\"\"" = false)
    (noEscape : Cursor.startsWithText ⟨position, codePoint :: rest⟩ "\\\"\"\"" = false)
    (notReturn : codePoint ≠ ofChar '\r') :
    readBlockInside (fuel + 1) start ⟨position, codePoint :: rest⟩ lines line =
      if isLineEnd codePoint then
        readBlockInside fuel start ⟨position + 1, rest⟩ (line.reverse :: lines) []
      else
        match characterLength (codePoint :: rest) with
        | 0 => .error ⟨.invalidInText codePoint, position⟩
        | 1 => readBlockInside fuel start ⟨position + 1, rest⟩ lines (codePoint :: line)
        | _ => readBlockInside fuel start ⟨position + 2, rest.drop 1⟩ lines
          (rest.take 1 ++ codePoint :: line) := by
  have noReturnFeed : Cursor.startsWithText ⟨position, codePoint :: rest⟩ "\r\n" = false :=
    Cuts.startsWithText_cons notReturn
  simp only [readBlockInside, noClose, noEscape, noReturnFeed, Bool.false_eq_true, if_false]
  rfl

/-- An escaped text and its closing marks are read as the lines of the text, if they are read. The
lines that were read before, and the last one, are kept backwards; they are those of `done`. -/
theorem readBlockInside_escaped (start : Nat) (rest : Text) (fuel position : Nat)
    (lines : List Text) (line done content : Text) (noReturn : ofChar '\r' ∉ content)
    (safe : EndsSafely content)
    (soFar : splitOn (ofChar '\n') done = lines.reverse ++ [line.reverse]) :
    (∃ next, readBlockInside fuel start
        ⟨position, escapeMarks content ++ (blockMarks ++ rest)⟩ lines line =
          .ok (⟨.block (Text.join "\n" (dedent (splitOn (ofChar '\n') (done ++ content)))), start⟩,
            ⟨next, rest⟩)) ∨
      ∃ fault, readBlockInside fuel start
        ⟨position, escapeMarks content ++ (blockMarks ++ rest)⟩ lines line = .error fault := by
  induction fuel generalizing position lines line done content with
  | zero => exact .inr ⟨_, rfl⟩
  | succ fuel inductionHypothesis =>
    by_cases marked : blockMarks.isPrefixOf content
    · -- escaped marks
      obtain ⟨others, rfl⟩ := List.isPrefixOf_iff_prefix.mp marked
      have noReturn' : ofChar '\r' ∉ others := fun mem => noReturn (List.mem_append_right _ mem)
      have soFar' := splitOn_append_line soFar (by decide : ofChar '\n' ∉ blockMarks)
      have step := inductionHypothesis (position + 4) lines (blockMarks.reverse ++ line)
        (done ++ blockMarks) others noReturn' safe.of_append soFar'
      rw [List.append_assoc] at step
      rw [escapeMarks_append]
      exact step
    · cases content with
      | nil =>
          -- the closing marks
          refine .inl ⟨position + 3, ?_⟩
          have closes : escapeMarks [] ++ (blockMarks ++ rest) =
              ofChar '"' :: ofChar '"' :: ofChar '"' :: rest := rfl
          rw [List.append_nil, soFar, closes]
          simp [readBlockInside, Cursor.startsWithText, Cursor.advance, Text.ofString]
      | cons codePoint others =>
          have noMarks := Bool.eq_false_iff.mpr marked
          have noClose := noMarks_escaped (List.cons_ne_nil codePoint others) safe rest
          rw [escapeMarks_cons noMarks, List.cons_append] at noClose ⊢
          simp only [List.mem_cons, not_or] at noReturn
          obtain ⟨notReturn, noReturn⟩ := noReturn
          rw [readBlockInside_cons lines line noClose (noEscape_escaped safe rest position)
            (Ne.symm notReturn)]
          by_cases isFeed : codePoint = ofChar '\n'
          · -- the end of a line
            subst isFeed
            have soFar' : splitOn (ofChar '\n') (done ++ [ofChar '\n']) =
                (line.reverse :: lines).reverse ++ [([] : Text).reverse] := by
              rw [Text.splitOn_append soFar (Text.splitOn_separator _ [])]
              simp [splitOn]
            have later := inductionHypothesis (position + 1) (line.reverse :: lines) []
              (done ++ [ofChar '\n']) others noReturn safe.tail soFar'
            rw [List.append_assoc] at later
            exact later
          · have notEnd : isLineEnd codePoint = false := by
              have notFeed : codePoint.value ≠ 10 := fun same => isFeed (CodePoint.ext same)
              have notReturn' : codePoint.value ≠ 13 :=
                fun same => notReturn (CodePoint.ext same.symm)
              simpa [isLineEnd] using ⟨notFeed, notReturn'⟩
            rw [notEnd, if_neg Bool.false_ne_true]
            cases isSurrogate : codePoint.isSurrogate with
            | false =>
                have length : characterLength
                    (codePoint :: (escapeMarks others ++ (blockMarks ++ rest))) = 1 := by
                  simp [characterLength, isSurrogate]
                have later := inductionHypothesis (position + 1) lines (codePoint :: line)
                  (done ++ [codePoint]) others noReturn safe.tail
                  (splitOn_append_line soFar (by simpa using Ne.symm isFeed))
                rw [List.append_assoc] at later
                rw [length]
                exact later
            | true =>
                rcases characterLength_escaped others rest isSurrogate with
                  none | ⟨second, behind, rfl, low, kept, two⟩
                · rw [none]
                  exact .inr ⟨_, rfl⟩
                · have notFeed : ofChar '\n' ≠ second := by
                    rintro rfl
                    cases low
                  simp only [List.mem_cons, not_or] at noReturn
                  have later := inductionHypothesis (position + 2) lines
                    (second :: codePoint :: line) (done ++ [codePoint, second]) behind noReturn.2
                    safe.tail.tail
                    (splitOn_append_line soFar (by simpa using ⟨Ne.symm isFeed, notFeed⟩))
                  rw [List.append_assoc] at later
                  rw [two, kept]
                  exact later

/-- A text begins with marks, or with a code point that begins none, or is empty; and what is
behind is such a text again. -/
theorem marks_induction {motive : Text → Prop} (nil : motive [])
    (marked : ∀ rest, motive rest → motive (blockMarks ++ rest))
    (cons : ∀ codePoint rest, blockMarks.isPrefixOf (codePoint :: rest) = false → motive rest →
      motive (codePoint :: rest)) (text : Text) : motive text := by
  induction length : text.length using Nat.strong_induction_on generalizing text with
  | _ size inductionHypothesis =>
      by_cases isMarked : blockMarks.isPrefixOf text
      · obtain ⟨rest, rfl⟩ := List.isPrefixOf_iff_prefix.mp isMarked
        have shorter : rest.length < size := by
          simp [blockMarks] at length
          omega
        exact marked rest (inductionHypothesis _ shorter rest rfl)
      · cases text with
        | nil => exact nil
        | cons head tail =>
            have shorter : tail.length < size := by
              simp at length
              omega
            exact cons head tail (Bool.eq_false_iff.mpr isMarked)
              (inductionHypothesis _ shorter tail rfl)

/-- A line feed behind a text is no part of the marks in it. -/
theorem escapeMarks_concat (content : Text) :
    escapeMarks (content ++ [ofChar '\n']) = escapeMarks content ++ [ofChar '\n'] := by
  induction content using marks_induction with
  | nil => rfl
  | marked rest inductionHypothesis =>
      rw [List.append_assoc, escapeMarks_append, escapeMarks_append, inductionHypothesis,
        List.append_assoc]
  | cons head tail noMarks inductionHypothesis =>
      have noMarks' : blockMarks.isPrefixOf (head :: (tail ++ [ofChar '\n'])) = false := by
        refine Bool.eq_false_iff.mpr fun isPrefix => ?_
        have isPrefix : blockMarks <+: (head :: tail) ++ [ofChar '\n'] :=
          List.isPrefixOf_iff_prefix.mp isPrefix
        rcases List.prefix_concat_iff.mp isPrefix with whole | inside
        · have lasts := congrArg List.getLast? whole
          rw [List.getLast?_concat] at lasts
          exact absurd lasts (by decide)
        · exact Bool.eq_false_iff.mp noMarks (List.isPrefixOf_iff_prefix.mpr inside)
      rw [List.cons_append, escapeMarks_cons noMarks', escapeMarks_cons noMarks,
        inductionHypothesis]
      rfl

/-- In front of other code points than quotation marks nothing is escaped. -/
theorem escapeMarks_plain_append {plain : Text} (noQuote : ofChar '"' ∉ plain) (rest : Text) :
    escapeMarks (plain ++ rest) = plain ++ escapeMarks rest := by
  induction plain with
  | nil => rfl
  | cons head tail inductionHypothesis =>
      simp only [List.mem_cons, not_or] at noQuote
      rw [List.cons_append, escapeMarks_cons (noMarks_of_ne (Ne.symm noQuote.1) _),
        inductionHypothesis noQuote.2]
      rfl

/-- The lines of an escaped text are indented as those of the text are. -/
theorem indent_escapeMarks (blank : ∀ codePoint ∈ indent, codePoint.isBlank = true)
    (content : Text) :
    (escapeMarks content).replaceAll [ofChar '\n'] (ofChar '\n' :: indent) =
      escapeMarks (content.replaceAll [ofChar '\n'] (ofChar '\n' :: indent)) := by
  induction content using marks_induction with
  | nil => rfl
  | marked rest inductionHypothesis =>
      have keptMarks : blockMarks.replaceAll [ofChar '\n'] (ofChar '\n' :: indent) = blockMarks :=
        Text.replaceAll_singleton_of_notMem (by decide)
      have keptEscape : Text.replaceAll (ofChar '\\' :: blockMarks) [ofChar '\n']
          (ofChar '\n' :: indent) = ofChar '\\' :: blockMarks :=
        Text.replaceAll_singleton_of_notMem (by decide)
      rw [escapeMarks_append, Text.replaceAll_singleton_append, keptEscape,
        Text.replaceAll_singleton_append, keptMarks, escapeMarks_append, inductionHypothesis]
  | cons head tail noMarks inductionHypothesis =>
      rw [escapeMarks_cons noMarks]
      by_cases isFeed : head = ofChar '\n'
      · subst isFeed
        have noQuote : ofChar '"' ∉ ofChar '\n' :: indent := by
          rintro (_ | ⟨_, mem⟩)
          exact absurd (blank _ mem) (by decide)
        rw [Text.replaceAll_singleton_self, Text.replaceAll_singleton_self, inductionHypothesis,
          escapeMarks_plain_append noQuote]
      · have noMarks' : blockMarks.isPrefixOf
            (head :: Text.replaceAll tail [ofChar '\n'] (ofChar '\n' :: indent)) = false := by
          rw [← Text.replaceAll_singleton_other isFeed,
            Text.isPrefixOf_replaceAll (by decide : ofChar '\n' ∉ blockMarks), noMarks]
        rw [Text.replaceAll_singleton_other isFeed, Text.replaceAll_singleton_other isFeed,
          escapeMarks_cons noMarks', inductionHypothesis]

/-- Escaping adds nothing but backslashes. -/
theorem mem_escapeMarks_iff {codePoint : CodePoint} (notBackslash : codePoint ≠ ofChar '\\')
    (content : Text) : codePoint ∈ escapeMarks content ↔ codePoint ∈ content := by
  induction content using marks_induction with
  | nil => rfl
  | marked rest inductionHypothesis =>
      rw [escapeMarks_append, List.mem_append, List.mem_append, inductionHypothesis]
      simp [notBackslash]
  | cons head tail noMarks inductionHypothesis =>
      rw [escapeMarks_cons noMarks, List.mem_cons, List.mem_cons, inductionHypothesis]

/-- A text that ends in neither of two marks ends safely. -/
theorem endsSafely_of_endsWith {text : Text} (noQuote : text.endsWith "\"" = false)
    (noBackslash : text.endsWith "\\" = false) : EndsSafely text := by
  have notLast : ∀ other : CodePoint, text.endsWith [other] = false →
      ∀ last ∈ text.getLast?, last ≠ other := by
    rintro other ends last mem rfl
    obtain ⟨front, rfl⟩ := List.getLast?_eq_some_iff.mp mem
    rw [Text.endsWith, Bool.eq_false_iff] at ends
    exact ends (List.isSuffixOf_iff_suffix.mpr (List.suffix_append front [last]))
  intro last mem
  exact ⟨notLast _ noQuote last mem, notLast _ noBackslash last mem⟩

/-- An escaped text has one line where the text has one. -/
theorem lines_escapeMarks {content : Text} (noReturn : ofChar '\r' ∉ content) :
    (escapeMarks content).lines.length ≤ 1 ↔ ofChar '\n' ∉ content := by
  have noReturn' : ofChar '\r' ∉ escapeMarks content := by
    rwa [mem_escapeMarks_iff (by decide)]
  rw [Text.lines_eq_splitOn noReturn', ← mem_escapeMarks_iff (by decide)]
  exact Text.length_splitOn_le_one_iff

/-- A line feed where it is wanted. -/
def feedIf (wanted : Bool) : Text :=
  if wanted then [ofChar '\n'] else []

/-- Where a block has line feeds of its own. -/
theorem blockText_eq (content : Text) : ∃ leads trails : Bool,
    blockText content =
      blockMarks ++ feedIf leads ++ escapeMarks content ++ feedIf trails ++ blockMarks ∧
    (1 < (escapeMarks content).lines.length → leads = true ∧ trails = true) ∧
    ((escapeMarks content).lines.length ≤ 1 →
      leads = (trails && !(content.head?.map CodePoint.isBlank).getD false)) ∧
    (trails = true → content ≠ []) ∧ (trails = false → EndsSafely content) := by
  refine ⟨_, _, rfl, fun several => ?_, fun single => ?_, fun trail => ?_, fun noTrail => ?_⟩
  · have several' : ¬ (escapeMarks content).lines.length ≤ 1 := by omega
    have several' : ¬ (content.replaceAll "\"\"\"" "\\\"\"\"").lines.length ≤ 1 := several'
    simp [several']
  · have single' : (content.replaceAll "\"\"\"" "\\\"\"\"").lines.length ≤ 1 := single
    simp only [single', decide_true, Bool.not_true, Bool.false_or, Bool.false_and, Bool.or_false,
      Bool.true_and]
    grind
  · rintro rfl
    exact absurd trail (by decide)
  · simp only [Bool.or_eq_false_iff] at noTrail
    obtain ⟨⟨-, notMarks⟩, notQuote, notBackslash⟩ := noTrail
    rw [notMarks] at notQuote
    exact endsSafely_of_endsWith (by simpa using notQuote) notBackslash

/-- How a text that fits a block is written: on one line, or on lines of its own, where it begins on
the line of the opening marks if it begins with a blank. -/
theorem blockText_cases {content : Text} (fits : fitsBlock content = true) :
    ∃ body, blockText content = blockMarks ++ escapeMarks body ++ blockMarks ∧
      (body = ofChar '\n' :: (content ++ [ofChar '\n']) ∧ content ≠ [] ∧
          (∃ line ∈ splitOn (ofChar '\n') content, BeginsFlush line) ∨
        body = content ++ [ofChar '\n'] ∧ content ≠ [] ∧ ofChar '\n' ∉ content ∨
        body = content ∧ ofChar '\n' ∉ content ∧ EndsSafely content) := by
  obtain ⟨noReturn, fitting⟩ := fittingLines_of_fitsBlock fits
  obtain ⟨leads, trails, written, onSeveral, onOne, trail, noTrail⟩ := blockText_eq content
  have single := lines_escapeMarks noReturn
  have spread : escapeMarks (ofChar '\n' :: (content ++ [ofChar '\n'])) =
      ofChar '\n' :: (escapeMarks content ++ [ofChar '\n']) := by
    rw [escapeMarks_cons (noMarks_of_ne (by decide) _), escapeMarks_concat]
  by_cases isSingle : (escapeMarks content).lines.length ≤ 1
  · have noFeed := single.mp isSingle
    have whole := Text.splitOn_eq_singleton_iff.mpr noFeed
    have leads := onOne isSingle
    cases trails with
    | false =>
        obtain rfl := leads
        refine ⟨content, by simpa [feedIf] using written, .inr (.inr ⟨rfl, noFeed, noTrail rfl⟩)⟩
    | true =>
        have nonempty : content ≠ [] := trail rfl
        obtain ⟨head, tail, rfl⟩ := List.exists_cons_of_ne_nil nonempty
        by_cases startsBlank : head.isBlank = true
        · obtain rfl : _ = false := by simpa [startsBlank] using leads
          refine ⟨head :: tail ++ [ofChar '\n'], ?_, .inr (.inl ⟨rfl, nonempty, noFeed⟩)⟩
          rw [escapeMarks_concat]
          simpa [feedIf] using written
        · obtain rfl : _ = true := by simpa [startsBlank] using leads
          refine ⟨ofChar '\n' :: (head :: tail ++ [ofChar '\n']), ?_,
            .inl ⟨rfl, nonempty, head :: tail, by simp [whole], head, rfl,
              by simpa using startsBlank⟩⟩
          rw [spread]
          simpa [feedIf] using written
  · have several : 1 < (escapeMarks content).lines.length := by omega
    obtain ⟨rfl, rfl⟩ := onSeveral several
    have nonempty : content ≠ [] := by
      rintro rfl
      exact isSingle (by decide)
    refine ⟨ofChar '\n' :: (content ++ [ofChar '\n']), ?_, .inl ⟨rfl, nonempty, ?_⟩⟩
    · rw [spread]
      simpa [feedIf] using written
    · have cut : 1 < (splitOn (ofChar '\n') content).length := by
        rw [← not_le, Text.length_splitOn_le_one_iff, ← single]
        exact isSingle
      exact (fitting nonempty).flush cut

/-- What is read where a text was written on indented lines between marks: the text again. -/
theorem dedent_body {content body : Text} (blank : ∀ codePoint ∈ indent, codePoint.isBlank = true)
    (fits : fitsBlock content = true)
    (shape : body = ofChar '\n' :: (content ++ [ofChar '\n']) ∧ content ≠ [] ∧
          (∃ line ∈ splitOn (ofChar '\n') content, BeginsFlush line) ∨
        body = content ++ [ofChar '\n'] ∧ content ≠ [] ∧ ofChar '\n' ∉ content ∨
        body = content ∧ ofChar '\n' ∉ content ∧ EndsSafely content) :
    Text.join "\n" (dedent (splitOn (ofChar '\n')
      (body.replaceAll [ofChar '\n'] (ofChar '\n' :: indent)))) = content := by
  obtain ⟨noReturn, fitting⟩ := fittingLines_of_fitsBlock fits
  have noFeed : ofChar '\n' ∉ indent := fun mem => absurd (blank _ mem) (by decide)
  have blankIndent : isBlankLine indent = true := List.all_eq_true.mpr blank
  have joined : Text.join "\n" (splitOn (ofChar '\n') content) = content := Text.join_splitOn _ _
  suffices kept : dedent (splitOn (ofChar '\n')
      (body.replaceAll [ofChar '\n'] (ofChar '\n' :: indent))) = splitOn (ofChar '\n') content ∨
      dedent (splitOn (ofChar '\n') (body.replaceAll [ofChar '\n'] (ofChar '\n' :: indent))) = [] ∧
        content = [] by
    rcases kept with kept | ⟨kept, rfl⟩
    · rw [kept, joined]
    · rw [kept]
      rfl
  have concat : splitOn (ofChar '\n') (content ++ [ofChar '\n']) =
      splitOn (ofChar '\n') content ++ [[]] := by
    obtain ⟨front, last, isConcat⟩ : ∃ front last,
        splitOn (ofChar '\n') content = front ++ [last] :=
      ⟨_, _, (List.dropLast_concat_getLast (Text.splitOn_ne_nil _ _)).symm⟩
    rw [Text.splitOn_append isConcat (Text.splitOn_separator _ []), isConcat]
    simp [splitOn]
  have trimmed : content ≠ [] → ofChar '\n' ∉ content → ∀ after : List Text,
      (∀ line ∈ after, isBlankLine line = true) →
      trimBlankLines ([] ++ [content] ++ after) = [content] := by
    intro nonempty oneLine after blankAfter
    have fits := fitting nonempty
    rw [Text.splitOn_eq_singleton_iff.mpr oneLine] at fits
    exact trimBlankLines_around (List.cons_ne_nil _ _) fits.first fits.last (by simp) blankAfter
  rcases shape with ⟨rfl, nonempty, flush⟩ | ⟨rfl, nonempty, oneLine⟩ | ⟨isBody, oneLine, -⟩
  · left
    have cut : splitOn (ofChar '\n') (ofChar '\n' :: (content ++ [ofChar '\n'])) =
        [] :: (splitOn (ofChar '\n') content ++ [[]]) := by
      rw [Text.splitOn_separator, concat]
    rw [Text.splitOn_replaceAll noFeed cut]
    exact dedent_indented blank (Text.splitOn_ne_nil _ _) (fitting nonempty) flush
  · left
    rw [Text.splitOn_eq_singleton_iff.mpr oneLine] at concat ⊢
    have allBlank : commonIndentation [indent] = none := by
      simp [commonIndentation, blankIndent]
    have cut : splitOn (ofChar '\n') (Text.replaceAll (content ++ [ofChar '\n']) [ofChar '\n']
        (ofChar '\n' :: indent)) = [content, indent] := by
      rw [Text.splitOn_replaceAll noFeed concat]
      change content :: [indent ++ []] = _
      rw [List.append_nil]
    simp only [cut, dedent, allBlank]
    exact trimmed nonempty oneLine [[]] (by simp [isBlankLine])
  · rw [isBody, Text.replaceAll_singleton_of_notMem oneLine,
      Text.splitOn_eq_singleton_iff.mpr oneLine]
    by_cases nonempty : content = []
    · subst nonempty
      exact .inr ⟨rfl, rfl⟩
    · exact .inl (trimmed nonempty oneLine [] (by simp))

/-- Lines that are indented end safely if they did before. -/
theorem EndsSafely.indented (blank : ∀ codePoint ∈ indent, codePoint.isBlank = true) {text : Text}
    (safe : EndsSafely text) :
    EndsSafely (text.replaceAll [ofChar '\n'] (ofChar '\n' :: indent)) := by
  rcases List.eq_nil_or_concat text with rfl | ⟨front, final, rfl⟩
  · exact nofun
  · rw [List.concat_eq_append, Text.replaceAll_singleton_append]
    intro last mem
    by_cases isFeed : final = ofChar '\n'
    · subst isFeed
      rw [Text.replaceAll_singleton_self, Text.replaceAll_nil, List.append_nil,
        List.getLast?_append_cons] at mem
      rcases List.mem_cons.mp (List.mem_of_getLast? mem) with rfl | inIndent
      · decide
      · have isBlank := blank last inIndent
        constructor <;> rintro rfl <;> cases isBlank
    · rw [Text.replaceAll_singleton_other isFeed, Text.replaceAll_nil] at mem
      exact safe last (by simpa using mem)

/-- A block text with indented lines stands between its marks, and says its content. -/
theorem indentLines_blockText {content : Text}
    (blank : ∀ codePoint ∈ indent, codePoint.isBlank = true) (fits : fitsBlock content = true) :
    ∃ body, Schema.indentLines indent (blockText content) =
        blockMarks ++ escapeMarks body ++ blockMarks ∧
      ofChar '\r' ∉ body ∧ EndsSafely body ∧
      Text.join "\n" (dedent (splitOn (ofChar '\n') body)) = content := by
  obtain ⟨body, written, shape⟩ := blockText_cases fits
  refine ⟨body.replaceAll [ofChar '\n'] (ofChar '\n' :: indent), ?_, ?_, ?_,
    dedent_body blank fits shape⟩
  · have marks : Text.replaceAll blockMarks [ofChar '\n'] (ofChar '\n' :: indent) = blockMarks :=
      Text.replaceAll_singleton_of_notMem (by decide)
    change Text.replaceAll (blockText content) [ofChar '\n'] (ofChar '\n' :: indent) = _
    rw [written, Text.replaceAll_singleton_append, Text.replaceAll_singleton_append,
      indent_escapeMarks blank, marks]
  · intro mem
    rcases Text.mem_or_of_mem_replaceAll_singleton mem with inBody | inIndent
    · have inContent : ofChar '\r' ∈ content := by
        rcases shape with ⟨rfl, -⟩ | ⟨rfl, -⟩ | ⟨rfl, -⟩ <;> simpa [ofChar] using inBody
      exact (fittingLines_of_fitsBlock fits).1 inContent
    · rcases List.mem_cons.mp inIndent with impossible | inIndent
      · exact absurd impossible (by decide)
      · exact absurd (blank _ inIndent) (by decide)
  · have feed : ∀ text : Text, EndsSafely (text ++ [ofChar '\n']) := by
      intro text last mem
      obtain rfl : ofChar '\n' = last := by simpa using mem
      decide
    refine EndsSafely.indented blank ?_
    rcases shape with ⟨rfl, -⟩ | ⟨rfl, -⟩ | ⟨rfl, -, safe⟩
    · exact feed (ofChar '\n' :: content)
    · exact feed content
    · exact safe

/-- A block text that fits, with indented lines, holds no carriage return. -/
theorem noReturn_indentLines_blockText {content : Text}
    (blank : ∀ codePoint ∈ indent, codePoint.isBlank = true) (fits : fitsBlock content = true) :
    ofChar '\r' ∉ Schema.indentLines indent (blockText content) := by
  obtain ⟨body, written, noReturn, -⟩ := indentLines_blockText blank fits
  have notMark : ofChar '\r' ∉ blockMarks := by decide
  rw [written, List.mem_append, List.mem_append, mem_escapeMarks_iff (by decide)]
  simp only [notMark, noReturn, or_self, not_false_iff]

/-- A text that was written as a block, on lines that are indented, is one token, if it can be
read. -/
theorem Cuts.block {content : Text} (blank : ∀ codePoint ∈ indent, codePoint.isBlank = true)
    (fits : fitsBlock content = true) (rest : Text) :
    Cuts (Schema.indentLines indent (blockText content)) rest [.block content] := by
  obtain ⟨body, written, noReturn, safe, meant⟩ := indentLines_blockText blank fits
  have read := fun position => readBlockInside_escaped position rest
    ([ofChar '"', ofChar '"'] ++ (escapeMarks body ++ (blockMarks ++ rest))).length
    (position + 3) [] [] [] body noReturn safe rfl
  simp only [List.nil_append, meant] at read
  have whole : Schema.indentLines indent (blockText content) =
      ofChar '"' :: (ofChar '"' :: ofChar '"' :: (escapeMarks body ++ blockMarks)) := written
  rw [whole]
  refine token nofun (by decide) (by decide) fun position => ?_
  simp only [List.cons_append, List.append_assoc]
  exact read position

end SchemaOrder.Document
