import Mathlib.Algebra.GroupWithZero.Nat
import SchemaOrder.Json.Reader
import SchemaOrder.Json.Writer
import SchemaOrder.Proofs.Collections
import SchemaOrder.Proofs.Document.Lines

/-!
# Reading written JSON

A value without numbers, whose objects have members of different names, is read again as what it
was written: every code point of a text is spelled so that the reader gives it back, and every
part stands where the reader looks for it. `parse_document` puts this together for a whole value;
the fuel of the reader is enough because every step takes at least one code point.
-/

namespace SchemaOrder.Json

open CodePoint (ofChar)

/-- The layout of documents: indented, with everything but controls written as it is. -/
def lined : Layout :=
  ⟨true, false⟩

/-- The four digits of an escape. -/
def escapeDigits (unit : Nat) : Text :=
  Text.padLeft 4 (Text.lower (Text.digitsIn 16 unit)) '0'

/-- An escape by number is two marks and four digits. -/
theorem unicodeEscape_eq (unit : Nat) :
    unicodeEscape unit = ofChar '\\' :: ofChar 'u' :: escapeDigits unit :=
  rfl

/-- The escape of a control has four digits, which spell the control. -/
theorem escapeDigits_control : ∀ unit < 0x20, (escapeDigits unit).length = 4 ∧
    fourHexDigits? (escapeDigits unit) = some unit ∧
    ∀ digit ∈ escapeDigits unit, digit ≠ ofChar '"' ∧ digit ≠ ofChar '\\' := by
  decide +kernel

/-- How a code point is written: as it is, as a letter behind a backslash, or as an escape. -/
theorem writeCodePoint_cases (codePoint : CodePoint) :
    (writeCodePoint lined codePoint = [codePoint] ∧ codePoint ≠ ofChar '"' ∧
        codePoint ≠ ofChar '\\' ∧ ¬ codePoint.value < 0x20) ∨
      (∃ letter, writeCodePoint lined codePoint = [ofChar '\\', letter] ∧ letter ≠ ofChar 'u' ∧
        simpleEscape? letter = some codePoint) ∨
      (writeCodePoint lined codePoint = unicodeEscape codePoint.value ∧
        codePoint.value < 0x20) := by
  have isChar : ∀ character : Char, codePoint.value = character.toNat →
      codePoint = ofChar character := fun _ same => CodePoint.ext same
  unfold writeCodePoint
  simp only [lined, Bool.false_and]
  split
  · next same =>
      rw [isChar _ same]
      exact .inr (.inl ⟨ofChar '"', rfl, by decide, by decide⟩)
  next notQuote =>
  split
  · next same =>
      rw [isChar _ same]
      exact .inr (.inl ⟨ofChar '\\', rfl, by decide, by decide⟩)
  next notBackslash =>
  split
  · next same =>
      rw [isChar _ same]
      exact .inr (.inl ⟨ofChar 'n', rfl, by decide, by decide⟩)
  split
  · next same =>
      rw [isChar _ same]
      exact .inr (.inl ⟨ofChar 'r', rfl, by decide, by decide⟩)
  split
  · next same =>
      rw [isChar _ same]
      exact .inr (.inl ⟨ofChar 't', rfl, by decide, by decide⟩)
  split
  · next same =>
      rw [show codePoint = CodePoint.ofNat 12 from CodePoint.ext same]
      exact .inr (.inl ⟨ofChar 'f', rfl, by decide, by decide⟩)
  split
  · next same =>
      rw [show codePoint = CodePoint.ofNat 8 from CodePoint.ext same]
      exact .inr (.inl ⟨ofChar 'b', rfl, by decide, by decide⟩)
  split
  · next control => exact .inr (.inr ⟨rfl, control⟩)
  · next printable =>
      refine .inl ⟨rfl, ?_, ?_, printable⟩
      · rintro rfl
        exact notQuote rfl
      · rintro rfl
        exact notBackslash rfl

/-- Only the first four code points of an escape count. -/
theorem fourHexDigits?_append {digits : Text} (four : digits.length = 4) (rest : Text) :
    fourHexDigits? (digits ++ rest) = fourHexDigits? digits := by
  match digits, four with
  | [first, second, third, fourth], _ => rfl

/-- A written code point is read as it was, if something stands behind it. -/
theorem readInside_writeCodePoint (codePoint : CodePoint) (fuel start position : Nat) {rest : Text}
    (more : rest ≠ []) (known : Text) :
    ∃ next, readInside (fuel + 1) start ⟨position, writeCodePoint lined codePoint ++ rest⟩ known =
      readInside fuel start ⟨next, rest⟩ (codePoint :: known) := by
  have quoteOther : ofChar '\\' ≠ ofChar '"' := by decide
  rcases writeCodePoint_cases codePoint with ⟨written, notQuote, notBackslash, printable⟩ |
    ⟨letter, written, notUnicode, spells⟩ | ⟨written, control⟩
  · refine ⟨position + 1, ?_⟩
    rw [written]
    simp only [List.singleton_append, readInside, notQuote, notBackslash, printable, if_false,
      Cursor.advance, List.drop_succ_cons, List.drop_zero]
  · refine ⟨position + 2, ?_⟩
    rw [written]
    simp only [List.cons_append, List.nil_append, readInside, quoteOther, notUnicode, spells,
      if_true, if_false, Cursor.advance, List.drop_succ_cons, List.drop_zero]
  · refine ⟨position + 6, ?_⟩
    obtain ⟨four, digits, -⟩ := escapeDigits_control codePoint.value control
    have enough : ¬ ((escapeDigits codePoint.value ++ rest).take 5).length < 5 := by
      have nonempty := List.length_pos_iff.mpr more
      rw [List.length_take, List.length_append, four]
      omega
    have behind : (escapeDigits codePoint.value ++ rest).drop 4 = rest := by
      rw [← four, List.drop_left]
    have same : CodePoint.ofNat codePoint.value = codePoint :=
      CodePoint.ext (CodePoint.value_ofNat codePoint.inRange)
    have notHigh : codePoint.isHighSurrogate = false := by
      simp [CodePoint.isHighSurrogate]
      omega
    rw [written, unicodeEscape_eq]
    simp only [List.cons_append, readInside, quoteOther, enough, fourHexDigits?_append four, digits,
      same, notHigh, if_true, if_false, Bool.false_eq_true, Cursor.advance, List.drop_succ_cons,
      behind]

/-- Code points that are no marks stand in front of the mark that closes a text. -/
theorem insideLength_append {plain rest : Text}
    (noMarks : ∀ codePoint ∈ plain, codePoint ≠ ofChar '"' ∧ codePoint ≠ ofChar '\\')
    (more : rest ≠ []) : insideLength (plain ++ rest) = plain.length + insideLength rest := by
  induction plain with
  | nil => simp
  | cons head tail inductionHypothesis =>
      obtain ⟨notQuote, notBackslash⟩ := noMarks head (by simp)
      have inTail := inductionHypothesis fun codePoint mem => noMarks codePoint (by simp [mem])
      obtain ⟨second, others, isCons⟩ :=
        List.exists_cons_of_ne_nil (List.append_ne_nil_of_right_ne_nil tail more)
      rw [isCons] at inTail
      rw [List.cons_append, isCons, insideLength, if_neg notQuote, if_neg notBackslash, inTail,
        List.length_cons]
      omega

/-- What stands in front of the mark that closes a written text is at least as long as the text. -/
theorem insideLength_writeCodePoint (codePoint : CodePoint) {rest : Text} (more : rest ≠ []) :
    insideLength rest + 1 ≤ insideLength (writeCodePoint lined codePoint ++ rest) := by
  have quoteOther : ofChar '\\' ≠ ofChar '"' := by decide
  rcases writeCodePoint_cases codePoint with ⟨written, notQuote, notBackslash, -⟩ |
    ⟨letter, written, -, -⟩ | ⟨written, control⟩
  · rw [written, insideLength_append (by simp [notQuote, notBackslash]) more, List.length_singleton]
    omega
  · rw [written]
    simp [insideLength, quoteOther]
  · obtain ⟨-, -, noMarks⟩ := escapeDigits_control codePoint.value control
    rw [written, unicodeEscape_eq]
    simp only [List.cons_append, insideLength, quoteOther, if_true, if_false,
      insideLength_append noMarks more]
    omega

/-- The inside of a written text, with the mark that closes it. -/
def insideOf (content : Text) : Text :=
  content.flatMap (writeCodePoint lined) ++ [ofChar '"']

/-- What stands behind a written text stands behind its closing mark. -/
theorem insideOf_append (content rest : Text) :
    insideOf content ++ rest = content.flatMap (writeCodePoint lined) ++ ofChar '"' :: rest := by
  simp [insideOf]

/-- The fuel of the reader is enough for the inside of a written text. -/
theorem length_lt_insideLength (content rest : Text) :
    content.length < insideLength (insideOf content ++ rest) := by
  rw [insideOf_append]
  induction content with
  | nil => cases rest <;> simp [insideLength]
  | cons first others inductionHypothesis =>
      rw [List.flatMap_cons, List.append_assoc, List.length_cons]
      have step := insideLength_writeCodePoint first
        (List.append_ne_nil_of_right_ne_nil (others.flatMap (writeCodePoint lined))
          (List.cons_ne_nil (ofChar '"') rest))
      omega

/-- The inside of a written text is read as it was. -/
theorem readInside_insideOf (content : Text) (fuel start position : Nat) (rest known : Text)
    (enough : content.length < fuel) :
    ∃ next, readInside fuel start ⟨position, insideOf content ++ rest⟩ known =
      .ok (known.reverse ++ content, ⟨next, rest⟩) := by
  rw [insideOf_append]
  induction content generalizing fuel position known with
  | nil =>
      obtain _ | fuel := fuel
      · cases enough
      · exact ⟨position + 1, by simp [readInside, Cursor.advance]⟩
  | cons first others inductionHypothesis =>
      obtain _ | fuel := fuel
      · cases enough
      rw [List.flatMap_cons, List.append_assoc]
      obtain ⟨middle, step⟩ := readInside_writeCodePoint first fuel start position
        (List.append_ne_nil_of_right_ne_nil (others.flatMap (writeCodePoint lined))
          (List.cons_ne_nil (ofChar '"') rest)) known
      obtain ⟨next, read⟩ := inductionHypothesis fuel middle (first :: known)
        (Nat.lt_of_succ_lt_succ enough)
      exact ⟨next, by rw [step, read]; simp⟩

/-- A written text is read as it was. -/
theorem readText_writeText (content : Text) (position : Nat) (rest : Text) :
    ∃ next, readText ⟨position, writeText lined content ++ rest⟩ = .ok (content, ⟨next, rest⟩) := by
  have enough := length_lt_insideLength content rest
  obtain ⟨next, read⟩ := readInside_insideOf content
    (insideLength (insideOf content ++ rest) + 1) position (position + 1) rest [] (by omega)
  exact ⟨next, read⟩

/-- Values without numbers, in whose objects the members have different names. -/
inductive IsPlain : Json → Prop where
  | null : IsPlain .null
  | boolean (value : Bool) : IsPlain (.boolean value)
  | text (content : Text) : IsPlain (.text content)
  | array {items : List Json} (plain : ∀ item ∈ items, IsPlain item) : IsPlain (.array items)
  | object {members : List (Text × Json)} (unique : (members.map Prod.fst).Nodup)
      (plain : ∀ member ∈ members, IsPlain member.2) : IsPlain (.object members)

/-- What a value begins with: no blank, no byte order mark, and nothing that ends a collection. -/
def Opens (text : Text) : Prop :=
  ∃ first others, text = first :: others ∧ isSpace first = false ∧ first ≠ ofChar ']' ∧
    first ≠ ofChar '\x7d' ∧ first ≠ CodePoint.ofNat 0xFEFF

/-- A text that is read as a value wherever it stands, in two steps for each of its code points. -/
structure Spells (text : Text) (value : Json) : Prop where
  opens : Opens text
  reads : ∀ fuel, 2 * text.length ≤ fuel → ∀ position rest, ∃ next,
    readValue fuel ⟨position, text ++ rest⟩ = .ok (value, ⟨next, rest⟩)

/-- A text that opens a value has a code point. -/
theorem Opens.length_pos {text : Text} (opens : Opens text) : 0 < text.length := by
  obtain ⟨first, others, rfl, -⟩ := opens
  simp

/-- Nothing is skipped in front of a value. -/
theorem Opens.solid {text : Text} (opens : Opens text) (rest : Text) :
    ∀ codePoint ∈ (text ++ rest).head?, isSpace codePoint = false := by
  obtain ⟨first, others, rfl, notSpace, -⟩ := opens
  rintro codePoint ⟨⟩
  exact notSpace

/-- Where a value begins, no collection ends. -/
theorem Opens.startsWith_end {text : Text} (opens : Opens text) (position : Nat) (rest : Text) :
    (⟨position, text ++ rest⟩ : Cursor).startsWith ']' = false ∧
      (⟨position, text ++ rest⟩ : Cursor).startsWith '\x7d' = false := by
  obtain ⟨first, others, rfl, -, notArrayEnd, notObjectEnd, -⟩ := opens
  simp [Cursor.startsWith, notArrayEnd, notObjectEnd]

/-- Blanks are skipped up to what is none. -/
theorem skipSpace_blanks {blanks rest : Text}
    (areBlank : ∀ codePoint ∈ blanks, isSpace codePoint = true)
    (solid : ∀ codePoint ∈ rest.head?, isSpace codePoint = false) (position : Nat) :
    ∃ next, (⟨position, blanks ++ rest⟩ : Cursor).skipSpace = ⟨next, rest⟩ := by
  have taken : (blanks ++ rest).takeWhile isSpace = blanks := by
    rw [List.takeWhile_append_of_pos areBlank]
    cases rest with
    | nil => simp
    | cons head tail => simp [solid head rfl]
  refine ⟨position + blanks.length, ?_⟩
  simp only [Cursor.skipSpace, Cursor.skip, taken, Cursor.advance, List.drop_left]

/-- The end of a line and the blanks of the next one are blank. -/
theorem isSpace_newLine (level : Nat) : ∀ codePoint ∈ newLine level, isSpace codePoint = true := by
  intro codePoint mem
  rcases List.mem_cons.mp mem with rfl | isBlank
  · decide
  · rw [List.eq_of_mem_replicate isBlank]
    decide

/-- What opens its first part opens parts with separators between them. -/
theorem Opens.join {first : Text} (opens : Opens first) (separator : Text) (others : List Text) :
    Opens (Text.join separator (first :: others)) := by
  obtain ⟨codePoint, rest, rfl, allowed⟩ := opens
  cases others with
  | nil => exact ⟨codePoint, rest, rfl, allowed⟩
  | cons second others => exact ⟨codePoint, _, rfl, allowed⟩

/-- Behind a comma and the end of a line stands the next part. -/
theorem skipSpace_nextPart {first : Text} (opens : Opens first) (level : Nat) (others : List Text)
    (separator rest : Text) (position : Nat) :
    ∃ next, (⟨position, newLine level ++ (Text.join separator (first :: others) ++ rest)⟩ :
      Cursor).skipSpace = ⟨next, Text.join separator (first :: others) ++ rest⟩ :=
  skipSpace_blanks (isSpace_newLine level) ((opens.join separator others).solid rest) position

/-- Nothing is skipped where no blank stands. -/
theorem skipSpace_solid {rest : Text} (solid : ∀ codePoint ∈ rest.head?, isSpace codePoint = false)
    (position : Nat) : ∃ next, (⟨position, rest⟩ : Cursor).skipSpace = ⟨next, rest⟩ :=
  skipSpace_blanks (show ∀ codePoint ∈ ([] : Text), isSpace codePoint = true by simp) solid position

/-- A mark that ends or separates parts is no blank. -/
theorem mark_solid {mark : Char} (notSpace : isSpace (ofChar mark) = false) (rest : Text) :
    ∀ codePoint ∈ (ofChar mark :: rest).head?, isSpace codePoint = false := by
  rintro codePoint ⟨⟩
  exact notSpace

/-- A cursor in front of a mark starts with it. -/
theorem startsWith_self (mark : Char) (position : Nat) (rest : Text) :
    (⟨position, ofChar mark :: rest⟩ : Cursor).startsWith mark = true := by
  simp [Cursor.startsWith]

/-- It starts with no other one. -/
theorem startsWith_other {mark other : Char} (different : ofChar mark ≠ ofChar other)
    (position : Nat) (rest : Text) :
    (⟨position, ofChar mark :: rest⟩ : Cursor).startsWith other = false := by
  simp [Cursor.startsWith, different]

/-- One code point further stands what is behind the first one. -/
theorem advance_one (position : Nat) (codePoint : CodePoint) (rest : Text) :
    (⟨position, codePoint :: rest⟩ : Cursor).advance 1 = ⟨position + 1, rest⟩ :=
  rfl

/-- The items of a written array are read as they were. -/
theorem readItems_join {texts : List Text} {items : List Json}
    (all : List.Forall₂ Spells texts items) (nonempty : items ≠ [])
    (level outer fuel position : Nat) (enough : 2 * (texts.map List.length).sum < fuel)
    (rest : Text) (known : List Json) :
    ∃ next, readItems fuel ⟨position, Text.join ("," ++ newLine level) texts ++
        (newLine outer ++ ofChar ']' :: rest)⟩ known =
      .ok (known.reverse ++ items, ⟨next, rest⟩) := by
  induction all generalizing fuel position known with
  | nil => exact absurd rfl nonempty
  | @cons text item texts items spells others inductionHypothesis =>
      obtain _ | fuel := fuel
      · cases enough
      rw [List.map_cons, List.sum_cons] at enough
      have positive := spells.opens.length_pos
      cases others with
      | nil =>
          obtain ⟨middle, read⟩ := spells.reads fuel (by simp at enough; omega) position
            (newLine outer ++ ofChar ']' :: rest)
          obtain ⟨next, skipped⟩ := skipSpace_blanks (isSpace_newLine outer)
            (@mark_solid ']' (by decide) rest) middle
          refine ⟨next + 1, ?_⟩
          simp only [Text.join, readItems, read, skipped, startsWith_self, if_true, advance_one,
            List.reverse_cons]
      | @cons second item' texts items second' others =>
          obtain ⟨behind, read⟩ := spells.reads fuel (by omega) position
            (ofChar ',' :: (newLine level ++ (Text.join ("," ++ newLine level) (second :: texts) ++
              (newLine outer ++ ofChar ']' :: rest))))
          obtain ⟨comma, skipped⟩ := skipSpace_solid (@mark_solid ',' (by decide)
            (newLine level ++ (Text.join ("," ++ newLine level) (second :: texts) ++
              (newLine outer ++ ofChar ']' :: rest)))) behind
          obtain ⟨start, skippedLine⟩ := skipSpace_nextPart second'.opens level texts
            ("," ++ newLine level) (newLine outer ++ ofChar ']' :: rest) (comma + 1)
          obtain ⟨next, readOthers⟩ := inductionHypothesis (List.cons_ne_nil _ _) fuel start
            (by omega) (item :: known)
          have parted : Text.join ("," ++ newLine level) (text :: second :: texts) ++
              (newLine outer ++ ofChar ']' :: rest) =
            text ++ ofChar ',' :: (newLine level ++ (Text.join ("," ++ newLine level)
              (second :: texts) ++ (newLine outer ++ ofChar ']' :: rest))) := by
            simp [Text.join, Text.ofString]
          have notEnd : ofChar ',' ≠ ofChar ']' := by decide
          refine ⟨next, ?_⟩
          simp only [readItems, parted, read, skipped, startsWith_other notEnd, startsWith_self,
            if_true, if_false, Bool.false_eq_true, advance_one, skippedLine, readOthers,
            List.reverse_cons, List.append_assoc, List.singleton_append]

/-- A member as objects are written: its name, a colon, and a text that is read as its value. -/
def SpellsMember (part : Text) (member : Text × Json) : Prop :=
  ∃ text, part = writeText lined member.1 ++ ofChar ':' :: ofChar ' ' :: text ∧
    Spells text member.2

/-- A written text opens a value. -/
theorem opens_writeText (content rest : Text) : Opens (writeText lined content ++ rest) :=
  ⟨ofChar '"', insideOf content ++ rest, rfl, by decide, by decide, by decide, by decide⟩

/-- A written member opens with its name. -/
theorem SpellsMember.opens {part : Text} {member : Text × Json}
    (spells : SpellsMember part member) : Opens part := by
  obtain ⟨text, rfl, -⟩ := spells
  exact opens_writeText member.1 _

/-- A written member is read as it was: its name, what stands in between, and its value. -/
theorem SpellsMember.reads {part : Text} {member : Text × Json} (spells : SpellsMember part member)
    (fuel position : Nat) (enough : 2 * part.length ≤ fuel) (rest : Text) :
    (⟨position, part ++ rest⟩ : Cursor).startsWith '"' = true ∧
    ∃ named colon valued next,
      readText ⟨position, part ++ rest⟩ = .ok (member.1, named) ∧
      named.skipSpace = colon ∧ colon.startsWith ':' = true ∧
      (colon.advance 1).skipSpace = valued ∧
      readValue fuel valued = .ok (member.2, ⟨next, rest⟩) := by
  obtain ⟨text, rfl, spelled⟩ := spells
  obtain ⟨behind, readName⟩ := readText_writeText member.1 position
    (ofChar ':' :: ofChar ' ' :: text ++ rest)
  obtain ⟨colon, skipped⟩ := skipSpace_solid (@mark_solid ':' (by decide)
    (ofChar ' ' :: text ++ rest)) behind
  obtain ⟨valued, skippedBlank⟩ := skipSpace_blanks
    (show ∀ codePoint ∈ [ofChar ' '], isSpace codePoint = true by decide)
    (spelled.opens.solid rest) (colon + 1)
  rw [List.length_append, List.length_cons, List.length_cons] at enough
  obtain ⟨next, readOthers⟩ := spelled.reads fuel (by omega) valued rest
  refine ⟨rfl, _, _, _, next, ?_, skipped, rfl, skippedBlank, readOthers⟩
  rw [List.append_assoc]
  exact readName

/-- The members of a written object are read as they were. -/
theorem readMembers_join {parts : List Text} {members : List (Text × Json)}
    (all : List.Forall₂ SpellsMember parts members) (nonempty : members ≠ [])
    (level outer fuel position : Nat) (enough : 2 * (parts.map List.length).sum < fuel)
    (rest : Text) (known : List (Text × Json)) :
    ∃ next, readMembers fuel ⟨position, Text.join ("," ++ newLine level) parts ++
        (newLine outer ++ ofChar '\x7d' :: rest)⟩ known =
      .ok (known.reverse ++ members, ⟨next, rest⟩) := by
  induction all generalizing fuel position known with
  | nil => exact absurd rfl nonempty
  | @cons part member parts members spells others inductionHypothesis =>
      obtain _ | fuel := fuel
      · cases enough
      rw [List.map_cons, List.sum_cons] at enough
      have positive := spells.opens.length_pos
      cases others with
      | nil =>
          obtain ⟨starts, named, colon, valued, middle, readName, skippedName, isColon,
            skippedColon, read⟩ := spells.reads fuel position (by simp at enough; omega)
              (newLine outer ++ ofChar '\x7d' :: rest)
          obtain ⟨next, skipped⟩ := skipSpace_blanks (isSpace_newLine outer)
            (@mark_solid '\x7d' (by decide) rest) middle
          refine ⟨next + 1, ?_⟩
          simp only [Text.join, readMembers, starts, readName, skippedName, isColon, skippedColon,
            read, skipped, startsWith_self, advance_one, Bool.not_true, Bool.false_eq_true,
            if_true, if_false, List.reverse_cons]
      | @cons second member' parts members second' others =>
          have parted : Text.join ("," ++ newLine level) (part :: second :: parts) ++
              (newLine outer ++ ofChar '\x7d' :: rest) =
            part ++ ofChar ',' :: (newLine level ++ (Text.join ("," ++ newLine level)
              (second :: parts) ++ (newLine outer ++ ofChar '\x7d' :: rest))) := by
            simp [Text.join, Text.ofString]
          obtain ⟨starts, named, colon, valued, behind, readName, skippedName, isColon,
            skippedColon, read⟩ := spells.reads fuel position (by omega)
              (ofChar ',' :: (newLine level ++ (Text.join ("," ++ newLine level)
                (second :: parts) ++ (newLine outer ++ ofChar '\x7d' :: rest))))
          obtain ⟨comma, skipped⟩ := skipSpace_solid (@mark_solid ',' (by decide)
            (newLine level ++ (Text.join ("," ++ newLine level) (second :: parts) ++
              (newLine outer ++ ofChar '\x7d' :: rest)))) behind
          obtain ⟨start, skippedLine⟩ := skipSpace_nextPart second'.opens level parts
            ("," ++ newLine level) (newLine outer ++ ofChar '\x7d' :: rest) (comma + 1)
          obtain ⟨next, readOthers⟩ := inductionHypothesis (List.cons_ne_nil _ _) fuel start
            (by omega) (member :: known)
          have notEnd : ofChar ',' ≠ ofChar '\x7d' := by decide
          refine ⟨next, ?_⟩
          simp only [readMembers, parted, starts, readName, skippedName, isColon, skippedColon,
            read, skipped, startsWith_other notEnd, startsWith_self, advance_one, Bool.not_true,
            Bool.false_eq_true, if_true, if_false, skippedLine, readOthers, List.reverse_cons,
            List.append_assoc, List.singleton_append]

/-- A value that is neither a collection nor a number is read from what is written for it. -/
theorem spells_text (content : Text) : Spells (writeText lined content) (.text content) where
  opens := by simpa using opens_writeText content []
  reads fuel enough position rest := by
    obtain _ | fuel := fuel
    · simp [writeText] at enough
    obtain ⟨next, read⟩ := readText_writeText content position rest
    have starts : (⟨position, writeText lined content ++ rest⟩ : Cursor).startsWith '"' = true :=
      rfl
    exact ⟨next, by rw [readValue, if_pos starts, read]; rfl⟩

/-- The words for null and the truth values are read as these. -/
theorem spells_word {word : Text} {value : Json}
    (isWord : (word, value) ∈ [((Text.ofString "null" : Text), Json.null),
      ((Text.ofString "true" : Text), .boolean true),
      ((Text.ofString "false" : Text), .boolean false)]) : Spells word value := by
  simp only [List.mem_cons, List.not_mem_nil, or_false, Prod.mk.injEq] at isWord
  rcases isWord with ⟨rfl, rfl⟩ | ⟨rfl, rfl⟩ | ⟨rfl, rfl⟩
  all_goals
    refine ⟨⟨_, _, rfl, by decide, by decide, by decide, by decide⟩,
      fun fuel enough position rest => ?_⟩
    obtain _ | fuel := fuel
    · cases enough
    exact ⟨_, rfl⟩

/-- Parts with separators between them are at least as long as the parts. -/
theorem sum_le_length_join (separator : Text) (parts : List Text) :
    (parts.map List.length).sum ≤ (Text.join separator parts).length := by
  induction parts with
  | nil => simp
  | cons first others inductionHypothesis =>
      cases others with
      | nil => simp [Text.join]
      | cons second others =>
          rw [Text.join, List.map_cons, List.sum_cons, List.length_append, List.length_append]
          omega

/-- What stands between the brackets of parts that have lines of their own. -/
theorem writeParts_cons (level : Nat) (opening closing : Char) (first : Text) (others : List Text)
    (rest : Text) :
    writeParts lined level [ofChar opening] [ofChar closing] (first :: others) ++ rest =
      ofChar opening :: (newLine (level + 1) ++ (Text.join ("," ++ newLine (level + 1))
        (first :: others) ++ (newLine level ++ ofChar closing :: rest))) := by
  simp [writeParts, lined]

/-- The fuel for parts between brackets is more than enough for the parts. -/
theorem sum_lt_of_writeParts {level : Nat} {opening closing : Char} {first : Text}
    {others : List Text} {fuel : Nat}
    (enough : 2 * (writeParts lined level [ofChar opening] [ofChar closing]
      (first :: others)).length ≤ fuel + 1) :
    2 * ((first :: others).map List.length).sum < fuel := by
  have written := writeParts_cons level opening closing first others []
  rw [List.append_nil] at written
  rw [written, List.length_cons, List.length_append, List.length_append, List.length_append,
    List.length_cons] at enough
  have joined := sum_le_length_join ("," ++ newLine (level + 1)) (first :: others)
  omega

/-- An array whose items are read as they were is read as it was. -/
theorem spells_array {texts : List Text} {items : List Json}
    (all : List.Forall₂ Spells texts items) (level : Nat) :
    Spells (writeParts lined level [ofChar '['] [ofChar ']'] texts) (.array items) := by
  cases all with
  | nil =>
      refine ⟨⟨_, _, rfl, by decide, by decide, by decide, by decide⟩,
        fun fuel enough position rest => ?_⟩
      obtain _ | fuel := fuel
      · cases enough
      exact ⟨_, rfl⟩
  | @cons first item others items spells spellOthers =>
      refine ⟨⟨ofChar '[', _, by simpa using writeParts_cons level '[' ']' first others [],
        by decide, by decide, by decide, by decide⟩, fun fuel enough position rest => ?_⟩
      obtain _ | fuel := fuel
      · exact absurd enough (by simp [writeParts, lined])
      obtain ⟨start, skipped⟩ := skipSpace_nextPart spells.opens (level + 1) others
        ("," ++ newLine (level + 1)) (newLine level ++ ofChar ']' :: rest) (position + 1)
      obtain ⟨next, read⟩ := readItems_join (.cons spells spellOthers) (List.cons_ne_nil _ _)
        (level + 1) level fuel start (sum_lt_of_writeParts enough) rest []
      have notText : ofChar '[' ≠ ofChar '"' := by decide
      have notObject : ofChar '[' ≠ ofChar '\x7b' := by decide
      have notEnd := (spells.opens.join ("," ++ newLine (level + 1)) others).startsWith_end start
        (newLine level ++ ofChar ']' :: rest)
      refine ⟨next, ?_⟩
      simp only [writeParts_cons, readValue, startsWith_other notText, startsWith_other notObject,
        startsWith_self, advance_one, skipped, notEnd.1, read, if_true, if_false,
        Bool.false_eq_true, Except.map, List.reverse_nil, List.nil_append]

/-- An object whose members are read as they were is read as it was, if they have different
names. -/
theorem spells_object {parts : List Text} {members : List (Text × Json)}
    (all : List.Forall₂ SpellsMember parts members) (unique : (members.map Prod.fst).Nodup)
    (level : Nat) :
    Spells (writeParts lined level [ofChar '\x7b'] [ofChar '\x7d'] parts) (.object members) := by
  cases all with
  | nil =>
      refine ⟨⟨_, _, rfl, by decide, by decide, by decide, by decide⟩,
        fun fuel enough position rest => ?_⟩
      obtain _ | fuel := fuel
      · cases enough
      exact ⟨_, rfl⟩
  | @cons first member others members spells spellOthers =>
      refine ⟨⟨ofChar '\x7b', _, by simpa using writeParts_cons level '\x7b' '\x7d' first others [],
        by decide, by decide, by decide, by decide⟩, fun fuel enough position rest => ?_⟩
      obtain _ | fuel := fuel
      · exact absurd enough (by simp [writeParts, lined])
      obtain ⟨start, skipped⟩ := skipSpace_nextPart spells.opens (level + 1) others
        ("," ++ newLine (level + 1)) (newLine level ++ ofChar '\x7d' :: rest) (position + 1)
      obtain ⟨next, read⟩ := readMembers_join (.cons spells spellOthers) (List.cons_ne_nil _ _)
        (level + 1) level fuel start (sum_lt_of_writeParts enough) rest []
      have notText : ofChar '\x7b' ≠ ofChar '"' := by decide
      have notEnd := (spells.opens.join ("," ++ newLine (level + 1)) others).startsWith_end start
        (newLine level ++ ofChar '\x7d' :: rest)
      refine ⟨next, ?_⟩
      simp only [writeParts_cons, readValue, startsWith_other notText, startsWith_self,
        advance_one, skipped, notEnd.2, read, if_true, if_false, Bool.false_eq_true, Except.map,
        List.reverse_nil, List.nil_append, ofMembers, Named.ofList_of_nodup unique]

/-- The items of an array are written each on its own. -/
theorem writeItems_eq_map (layout : Layout) (level : Nat) (items : List Json) :
    writeItems layout level items = items.map (write layout level) := by
  induction items with
  | nil => rfl
  | cons first others inductionHypothesis => rw [writeItems, inductionHypothesis, List.map_cons]

/-- The members of an object are written each on its own. -/
theorem writeMembers_eq_map (layout : Layout) (level : Nat) (members : List (Text × Json)) :
    writeMembers layout level members = members.map fun member =>
      writeText layout member.1 ++ ofChar ':' :: ofChar ' ' :: write layout level member.2 := by
  induction members with
  | nil => rfl
  | cons first others inductionHypothesis =>
      rw [writeMembers, inductionHypothesis, List.map_cons]
      simp [Text.ofString]

/-- A plain value is read from what is written for it, on any level. -/
theorem IsPlain.spells {value : Json} (plain : value.IsPlain) (level : Nat) :
    Spells (write lined level value) value := by
  induction plain generalizing level with
  | null => exact spells_word (by simp [write])
  | boolean value => cases value <;> exact spells_word (by simp [write])
  | text content => exact spells_text content
  | array _ inductionHypothesis =>
      rw [write, writeItems_eq_map]
      exact spells_array (List.forall₂_map_left_iff.mpr (List.forall₂_same.mpr fun item mem =>
        inductionHypothesis item mem (level + 1))) level
  | object unique _ inductionHypothesis =>
      rw [write, writeMembers_eq_map]
      exact spells_object (List.forall₂_map_left_iff.mpr (List.forall₂_same.mpr fun member mem =>
        ⟨_, rfl, inductionHypothesis member mem (level + 1)⟩)) unique level

/-- The document of a plain value is the JSON of the value. -/
theorem parse_document {value : Json} (plain : value.IsPlain) :
    parse (value.document ++ Text.ofString "\n") = .ok value := by
  obtain ⟨opens, reads⟩ := plain.spells 0
  have written : value.document = write lined 0 value := rfl
  obtain ⟨begun, atValue⟩ := skipSpace_solid (opens.solid (Text.ofString "\n")) 0
  obtain ⟨next, read⟩ := reads (2 * (write lined 0 value ++ Text.ofString "\n").length + 2)
    (by rw [List.length_append]; omega) begun (Text.ofString "\n")
  have noMark : (write lined 0 value ++ Text.ofString "\n").head? ≠
      some (CodePoint.ofNat 0xFEFF) := by
    obtain ⟨first, others, isCons, -, -, -, notMark⟩ := opens
    rw [isCons]
    simpa using notMark
  obtain ⟨last, atEnd⟩ := @skipSpace_blanks "\n" [] (by decide) (by simp) next
  rw [List.append_nil] at atEnd
  rw [written, parse, if_neg noMark, Cursor.start, atValue, read]
  simp only [atEnd, List.isEmpty_nil, if_true]

/-- A written text holds no carriage return. -/
theorem noReturn_writeText (content : Text) : ofChar '\r' ∉ writeText lined content := by
  have escaped : ∀ unit < 0x20, ofChar '\r' ∉ unicodeEscape unit := by decide +kernel
  have notSimple : simpleEscape? (ofChar '\r') = none := by decide
  have inside : ofChar '\r' ∉ content.flatMap (writeCodePoint lined) := by
    intro mem
    obtain ⟨codePoint, -, mem⟩ := List.mem_flatMap.mp mem
    rcases writeCodePoint_cases codePoint with ⟨written, -, -, printable⟩ |
      ⟨letter, written, -, spells⟩ | ⟨written, control⟩
    · rw [written, List.mem_singleton] at mem
      rw [← mem] at printable
      exact printable (by decide)
    · rw [written, List.mem_cons, List.mem_singleton] at mem
      rcases mem with isBackslash | rfl
      · exact absurd isBackslash (by decide)
      · rw [notSimple] at spells
        cases spells
    · rw [written] at mem
      exact escaped _ control mem
  have marks : ofChar '\r' ∉ [ofChar '"'] := by decide
  change ofChar '\r' ∉ [ofChar '"'] ++ content.flatMap (writeCodePoint lined) ++ [ofChar '"']
  simp only [List.mem_append, marks, inside, or_self, not_false_iff]

/-- Parts without carriage returns are written without any. -/
theorem noReturn_writeParts {level : Nat} {opening closing : Text} {parts : List Text}
    (notOpening : ofChar '\r' ∉ opening) (notClosing : ofChar '\r' ∉ closing)
    (notParts : ∀ part ∈ parts, ofChar '\r' ∉ part) :
    ofChar '\r' ∉ writeParts lined level opening closing parts := by
  have notLine : ∀ level, ofChar '\r' ∉ newLine level := by
    intro level mem
    rcases List.mem_cons.mp mem with isFeed | isBlank
    · exact absurd isFeed (by decide)
    · exact absurd (List.eq_of_mem_replicate isBlank) (by decide)
  have notJoined : ofChar '\r' ∉ Text.join ("," ++ newLine (level + 1)) parts := by
    intro mem
    rcases Text.mem_join mem with inSeparator | ⟨part, partMem, inPart⟩
    · rcases List.mem_append.mp inSeparator with isComma | inLine
      · exact absurd isComma (by decide)
      · exact notLine _ inLine
    · exact notParts part partMem inPart
  unfold writeParts
  split
  · simp only [List.mem_append, notOpening, notClosing, or_self, not_false_iff]
  · simp only [lined, if_true, List.mem_append, notOpening, notClosing, notLine, notJoined, or_self,
      not_false_iff]

/-- A plain value is written without carriage returns. -/
theorem IsPlain.noReturn {value : Json} (plain : value.IsPlain) (level : Nat) :
    ofChar '\r' ∉ write lined level value := by
  induction plain generalizing level with
  | null =>
      rw [write]
      decide
  | boolean value =>
      cases value <;>
        · rw [write]
          decide
  | text content =>
      rw [write]
      exact noReturn_writeText content
  | array _ inductionHypothesis =>
      rw [write, writeItems_eq_map]
      exact noReturn_writeParts (by decide) (by decide) (List.forall_mem_map.mpr fun item mem =>
        inductionHypothesis item mem (level + 1))
  | object _ _ inductionHypothesis =>
      rw [write, writeMembers_eq_map]
      refine noReturn_writeParts (by decide) (by decide)
        (List.forall_mem_map.mpr fun member mem => ?_)
      have between : ofChar '\r' ∉ [ofChar ':', ofChar ' '] := by decide
      change ofChar '\r' ∉ writeText lined member.1 ++
        ([ofChar ':', ofChar ' '] ++ write lined (level + 1) member.2)
      simp only [List.mem_append, noReturn_writeText, between,
        inductionHypothesis member mem (level + 1), or_self, not_false_iff]

end SchemaOrder.Json
