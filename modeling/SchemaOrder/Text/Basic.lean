import SchemaOrder.Text.CodePoint

/-!
# Text

A text is a list of code points. This module holds how texts are written in the
library, compared, joined, cut and padded. It knows no format: quoting, UTF-8 and
numbers have modules of their own.
-/

namespace SchemaOrder

/-- A text, code point by code point. -/
abbrev Text := List CodePoint

namespace Text

/-- The text of a string, which holds no surrogates. -/
def ofString (string : String) : Text :=
  string.toList.map CodePoint.ofChar

instance : Coe String Text := ⟨ofString⟩

/-- The digits of a number in a base of at most sixteen, capital letters for the
digits from ten on. -/
def digitsIn (base number : Nat) : Text :=
  (Nat.toDigits base number).map fun digit => CodePoint.ofChar digit.toUpper

/-- The decimal digits of a natural number. -/
def ofNat (number : Nat) : Text :=
  ofString (toString number)

/-- The decimal text of an integer. -/
def ofInt (number : Int) : Text :=
  match number with
  | .ofNat magnitude => ofNat magnitude
  | .negSucc predecessor => CodePoint.ofChar '-' :: ofNat (predecessor + 1)

/-- The number that decimal digits spell. -/
def digitsValue (digits : Text) : Nat :=
  digits.foldl (fun value digit => value * 10 + (digit.value - '0'.toNat)) 0

/-- The same code point a number of times. -/
def repeated (count : Nat) (codePoint : CodePoint) : Text :=
  List.replicate count codePoint

/-- The text moved to the right end of a field of the given width. -/
def padLeft (width : Nat) (text : Text) (filler : CodePoint := CodePoint.ofChar ' ') : Text :=
  repeated (width - text.length) filler ++ text

/-- The texts one after the other, with a separator between neighbours. -/
def join (separator : Text) : List Text → Text
  | [] => []
  | [only] => only
  | first :: second :: others => first ++ separator ++ join separator (second :: others)

/-- What a quotation in a message looks like: the text between two apostrophes. -/
def quote (text : Text) : Text :=
  ofString "'" ++ text ++ ofString "'"

/-- Whether the text begins with another one. -/
def startsWith (text start : Text) : Bool :=
  start.isPrefixOf text

/-- Whether the text ends with another one. -/
def endsWith (text finish : Text) : Bool :=
  finish.isSuffixOf text

/-- The text in ASCII small letters. -/
def lower (text : Text) : Text :=
  text.map CodePoint.lower

/-- The parts of a text between the places where a separator stands. -/
def splitOn (separator : CodePoint) (text : Text) : List Text :=
  match text with
  | [] => [[]]
  | codePoint :: rest =>
    match splitOn separator rest with
    | [] => [[codePoint]]
    | part :: parts =>
      if codePoint = separator then [] :: part :: parts else (codePoint :: part) :: parts

/-- The text with every occurrence of a pattern written as something else. The
pattern is looked for from the left, and occurrences do not overlap. -/
def replaceAll (text pattern replacement : Text) : Text :=
  go text 0
where
  /-- The walk along the text; `skipped` counts the code points of an occurrence
  that was already written. -/
  go : Text → Nat → Text
    | [], _ => []
    | _ :: rest, skipped + 1 => go rest skipped
    | codePoint :: rest, 0 =>
      if !pattern.isEmpty && pattern.isPrefixOf (codePoint :: rest) then
        replacement ++ go rest (pattern.length - 1)
      else codePoint :: go rest 0

/-- The lines of a text. A line ends at a line feed, at a carriage return, or at
the two together. -/
def lines (text : Text) : List Text :=
  go text false
where
  /-- The walk along the text; `afterReturn` holds behind a carriage return, whose
  line feed does not end a line again. -/
  go : Text → Bool → List Text
    | [], _ => [[]]
    | codePoint :: rest, afterReturn =>
      if codePoint.value = '\n'.toNat then
        if afterReturn then go rest false else [] :: go rest false
      else if codePoint.value = '\r'.toNat then [] :: go rest true
      else
        match go rest false with
        | [] => [[codePoint]]
        | line :: others => (codePoint :: line) :: others

/-- Whether one list comes before another one or is equal to it when their members
are compared by a number taken of them: the first difference decides, and a list comes
before its own continuations. -/
def comesByRank {α : Type} (rank : α → Nat) : List α → List α → Bool
  | [], _ => true
  | _ :: _, [] => false
  | left :: lefts, right :: rights =>
    rank left < rank right || (rank left = rank right && comesByRank rank lefts rights)

/-- Of two lists one always comes first. -/
theorem comesByRank_total {α : Type} (rank : α → Nat) (left right : List α) :
    comesByRank rank left right = true ∨ comesByRank rank right left = true := by
  induction left generalizing right with
  | nil => simp [comesByRank]
  | cons head tail inductionHypothesis =>
    cases right with
    | nil => simp [comesByRank]
    | cons other others =>
      have rest := inductionHypothesis others
      have ranks := Nat.lt_trichotomy (rank head) (rank other)
      simp only [comesByRank, Bool.or_eq_true, Bool.and_eq_true, decide_eq_true_eq]
      grind

/-- What comes before a list comes before whatever that list comes before. -/
theorem comesByRank_trans {α : Type} (rank : α → Nat) {left middle right : List α}
    (first : comesByRank rank left middle = true)
    (second : comesByRank rank middle right = true) :
    comesByRank rank left right = true := by
  induction left generalizing middle right with
  | nil => simp [comesByRank]
  | cons head tail inductionHypothesis =>
    match middle, right with
    | [], _ => simp [comesByRank] at first
    | _ :: _, [] => simp [comesByRank] at second
    | middleHead :: middleTail, rightHead :: rightTail =>
      simp only [comesByRank, Bool.or_eq_true, Bool.and_eq_true, decide_eq_true_eq] at *
      rcases first with less | ⟨same, rest⟩ <;> rcases second with less' | ⟨same', rest'⟩
      · omega
      · omega
      · omega
      · exact .inr ⟨by omega, inductionHypothesis rest rest'⟩

/-- Two lists that come before each other are equal, where the number tells the members
apart. -/
theorem comesByRank_antisymm {α : Type} {rank : α → Nat}
    (injective : ∀ {left right : α}, rank left = rank right → left = right)
    {left right : List α} (first : comesByRank rank left right = true)
    (second : comesByRank rank right left = true) : left = right := by
  induction left generalizing right with
  | nil =>
    cases right with
    | nil => rfl
    | cons => simp [comesByRank] at second
  | cons head tail inductionHypothesis =>
    cases right with
    | nil => simp [comesByRank] at first
    | cons other others =>
      simp only [comesByRank, Bool.or_eq_true, Bool.and_eq_true, decide_eq_true_eq] at *
      rcases first with less | ⟨same, rest⟩ <;> rcases second with less' | ⟨same', rest'⟩
      · omega
      · omega
      · omega
      · rw [injective same, inductionHypothesis rest rest']

/-- Whether one text stands before or at another in the order by code point. -/
def isAtMost (left right : Text) : Bool :=
  comesByRank CodePoint.value left right

/-- The texts in the order by code point. -/
def sorted (texts : List Text) : List Text :=
  texts.mergeSort isAtMost

/-- The text as a string, surrogates replaced. Texts without surrogates are kept. -/
def toStringLossy (text : Text) : String :=
  String.ofList (text.map fun codePoint => Char.ofNat codePoint.value)

end Text

end SchemaOrder
