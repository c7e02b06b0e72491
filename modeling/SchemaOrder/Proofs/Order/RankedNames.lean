import SchemaOrder.Order.Options
import SchemaOrder.Proofs.Json.EqualValues

/-!
# The order of the names of settings

The names of settings are texts or numbers of any kind, and only names of one sort have an order.
`checkComparable_eq_ok_iff` says when names have one, and `nameAtMost_eq_ranksBefore` that it is
then part of an order of all names, in which `agrees_of_ranksBefore` finds no two names level but
equal ones.
-/

namespace SchemaOrder.CompareOptions

variable {left middle right : Json} {names : List Json}

/-- Where a name stands among numbers. -/
def standing (name : Json) : ℤ ×ₗ ℚ :=
  (name.quantity?.bind fun number => number.exact.position).getD (toLex (0, 0))

/-- How a name is spelled, if it is a text. -/
def spelling : Json → Text
  | .text content => content
  | _ => []

/-- The order of names by where they stand and then by how they are spelled. Unlike `nameAtMost` it
compares any two names, and it is the same order among names that have one in common. -/
def ranksBefore (left right : Json) : Bool :=
  standing left < standing right ||
    (standing left = standing right && Text.isAtMost (spelling left) (spelling right))

/-- Any two names can be ranked. -/
theorem ranksBefore_total (left right : Json) :
    (ranksBefore left right || ranksBefore right left) = true := by
  simp only [ranksBefore, Bool.or_eq_true, Bool.and_eq_true, decide_eq_true_eq]
  rcases lt_trichotomy (standing left) (standing right) with before | level | after
  · exact .inl (.inl before)
  · rcases Text.comesByRank_total CodePoint.value (spelling left) (spelling right) with
      before | after
    · exact .inl (.inr ⟨level, before⟩)
    · exact .inr (.inr ⟨level.symm, after⟩)
  · exact .inr (.inl after)

/-- Ranking carries over a name in between. -/
theorem ranksBefore_trans (first : ranksBefore left middle = true)
    (second : ranksBefore middle right = true) : ranksBefore left right = true := by
  simp only [ranksBefore, Bool.or_eq_true, Bool.and_eq_true, decide_eq_true_eq] at *
  rcases first with before | ⟨level, before⟩
  · rcases second with next | ⟨nextLevel, -⟩
    · exact .inl (before.trans next)
    · exact .inl (nextLevel ▸ before)
  · rcases second with next | ⟨nextLevel, next⟩
    · exact .inl (level ▸ next)
    · exact .inr ⟨level.trans nextLevel, Text.comesByRank_trans CodePoint.value before next⟩

/-- Names that rank before each other stand at the same place and are spelled alike. -/
theorem eq_of_ranksBefore (first : ranksBefore left right = true)
    (second : ranksBefore right left = true) :
    standing left = standing right ∧ spelling left = spelling right := by
  simp only [ranksBefore, Bool.or_eq_true, Bool.and_eq_true, decide_eq_true_eq] at *
  rcases first with before | ⟨level, before⟩
  · rcases second with after | ⟨level, -⟩
    · exact absurd after before.asymm
    · exact absurd before (by simp [level])
  · rcases second with after | ⟨-, after⟩
    · exact absurd after (by simp [level])
    · exact ⟨level, Text.comesByRank_antisymm CodePoint.ext before after⟩

/-- Names have a common order: all of them are texts, or all of them are numbers, or there is only
one. -/
def HaveOrder (names : List Json) : Prop :=
  (∀ name ∈ names, ∃ content, name = .text content) ∨
    (∀ name ∈ names, ∃ number, name.quantity? = some number) ∨ names.length ≤ 1

/-- Two names can be compared if they have a common order. -/
theorem areComparable_iff : areComparable left right = true ↔
    (∃ first second, left = .text first ∧ right = .text second) ∨
      ∃ first second, left.quantity? = some first ∧ right.quantity? = some second := by
  cases left <;> cases right <;> simp [areComparable, Json.quantity?]

/-- Comparing neighbours finds out whether all names have a common order. -/
theorem checkComparable_eq_ok_iff : checkComparable names = .ok () ↔ HaveOrder names := by
  induction names with
  | nil => simp [checkComparable, HaveOrder]
  | cons first others inductionHypothesis =>
      cases others with
      | nil => simp [checkComparable, HaveOrder]
      | cons second rest =>
          have split : checkComparable (first :: second :: rest) = .ok () ↔
              areComparable first second = true ∧ HaveOrder (second :: rest) := by
            rw [checkComparable, ← inductionHypothesis]
            split <;> simp_all
          rw [split, areComparable_iff]
          constructor
          · rintro ⟨⟨text, next, rfl, rfl⟩ | ⟨number, next, isNumber, isNext⟩, haveOrder⟩
            · rcases haveOrder with texts | numbers | single
              · exact .inl (List.forall_mem_cons.mpr ⟨⟨text, rfl⟩, texts⟩)
              · obtain ⟨_, impossible⟩ := numbers (.text next) List.mem_cons_self
                cases impossible
              · obtain rfl : rest = [] := by simpa using single
                exact .inl (by simp)
            · rcases haveOrder with texts | numbers | single
              · obtain ⟨_, rfl⟩ := texts second List.mem_cons_self
                cases isNext
              · exact .inr (.inl (List.forall_mem_cons.mpr ⟨⟨number, isNumber⟩, numbers⟩))
              · obtain rfl : rest = [] := by simpa using single
                exact .inr (.inl (by simp [isNumber, isNext]))
          · rintro (texts | numbers | single)
            · obtain ⟨⟨text, isText⟩, restTexts⟩ := List.forall_mem_cons.mp texts
              obtain ⟨next, isNext⟩ := restTexts second List.mem_cons_self
              exact ⟨.inl ⟨text, next, isText, isNext⟩, .inl restTexts⟩
            · obtain ⟨⟨number, isNumber⟩, restNumbers⟩ := List.forall_mem_cons.mp numbers
              obtain ⟨next, isNext⟩ := restNumbers second List.mem_cons_self
              exact ⟨.inr ⟨number, next, isNumber, isNext⟩, .inr (.inl restNumbers)⟩
            · simp at single

/-- Of one name there are no two. -/
theorem eq_of_length_le_one (single : names.length ≤ 1) (leftMem : left ∈ names)
    (rightMem : right ∈ names) : left = right := by
  match names with
  | [name] => exact (List.mem_singleton.mp leftMem).trans (List.mem_singleton.mp rightMem).symm

/-- A number stands at the place of its exact value. -/
theorem standing_eq {number : Json.Quantity} (isNumber : left.quantity? = some number) :
    standing left = number.exact.position.getD (toLex (0, 0)) := by
  rw [standing, isNumber, Option.bind_some]

/-- A number that is defined stands somewhere. -/
theorem standing_of_quantity {number : Json.Quantity} (isNumber : left.quantity? = some number)
    (defined : left ≠ .float .nan) : number.exact.position = some (standing left) := by
  cases left with
  | null | text | array | object => cases isNumber
  | boolean | integer => cases isNumber; rfl
  | float value =>
      cases isNumber
      cases value with
      | nan => exact absurd rfl defined
      | finite | infinite => rfl

/-- Among names with a common order, ranking them is comparing them. -/
theorem nameAtMost_eq_ranksBefore (haveOrder : HaveOrder names)
    (defined : ∀ name ∈ names, name ≠ .float .nan) (leftMem : left ∈ names)
    (rightMem : right ∈ names) : nameAtMost left right = ranksBefore left right := by
  have ofNumbers : ∀ {first second : Json.Quantity} {left right : Json},
      left.quantity? = some first → right.quantity? = some second → left ≠ .float .nan →
      right ≠ .float .nan → nameAtMost left right = ranksBefore left right := by
    intro first second left right isFirst isSecond leftDefined rightDefined
    have comparison : nameAtMost left right = first.isAtMost second := by
      cases left <;> cases isFirst <;> cases right <;> cases isSecond <;> rfl
    have leftSpelling : spelling left = [] := by cases left <;> first | rfl | cases isFirst
    have rightSpelling : spelling right = [] := by cases right <;> first | rfl | cases isSecond
    rw [comparison, Bool.eq_iff_iff, Json.Quantity.isAtMost_iff,
      standing_of_quantity isFirst leftDefined, standing_of_quantity isSecond rightDefined]
    simp [ranksBefore, leftSpelling, rightSpelling, Text.isAtMost, Text.comesByRank,
      le_iff_lt_or_eq]
  rcases haveOrder with texts | numbers | single
  · obtain ⟨first, rfl⟩ := texts left leftMem
    obtain ⟨second, rfl⟩ := texts right rightMem
    simp [nameAtMost, ranksBefore, standing, spelling, Json.quantity?]
  · obtain ⟨first, isFirst⟩ := numbers left leftMem
    obtain ⟨second, isSecond⟩ := numbers right rightMem
    exact ofNumbers isFirst isSecond (defined left leftMem) (defined right rightMem)
  · obtain rfl := eq_of_length_le_one single leftMem rightMem
    cases isNumber : left.quantity? with
    | some number =>
        exact ofNumbers isNumber isNumber (defined left leftMem) (defined left leftMem)
    | none =>
        have self := ranksBefore_total left left
        rw [Bool.or_self] at self
        rw [self]
        cases left with
        | text content =>
            simpa [ranksBefore, spelling, nameAtMost] using self
        | null | array | object => rfl
        | boolean | integer | float => cases isNumber

/-- Names that agree stand at the same place and are spelled alike. -/
theorem rank_eq_of_agrees (same : left.agrees right = true) :
    standing left = standing right ∧ spelling left = spelling right := by
  cases left with
  | null => rw [Json.null_agrees_iff.mp same]; exact ⟨rfl, rfl⟩
  | text => rw [Json.text_agrees_iff.mp same]; exact ⟨rfl, rfl⟩
  | array | object => cases right <;> first | exact ⟨rfl, rfl⟩ | simp [Json.agrees] at same
  | boolean | integer | float =>
      obtain ⟨other, isOther, samePlace⟩ := (Json.agrees_iff_of_quantity rfl).mp same
      rw [standing_eq rfl, standing_eq isOther, samePlace]
      exact ⟨rfl, by cases right <;> first | rfl | cases isOther⟩

/-- Names with a common order agree if they rank before each other. -/
theorem agrees_of_ranksBefore (haveOrder : HaveOrder names)
    (defined : ∀ name ∈ names, name ≠ .float .nan)
    (hashable : ∀ name ∈ names, name.IsHashable) (leftMem : left ∈ names)
    (rightMem : right ∈ names) (first : ranksBefore left right = true)
    (second : ranksBefore right left = true) : left.agrees right = true := by
  obtain ⟨samePlace, sameSpelling⟩ := eq_of_ranksBefore first second
  rcases haveOrder with texts | numbers | single
  · obtain ⟨_, rfl⟩ := texts left leftMem
    obtain ⟨_, rfl⟩ := texts right rightMem
    obtain rfl := sameSpelling
    exact Json.text_agrees_iff.mpr rfl
  · obtain ⟨first, isFirst⟩ := numbers left leftMem
    obtain ⟨second, isSecond⟩ := numbers right rightMem
    refine (Json.agrees_iff_of_quantity isFirst).mpr ⟨second, isSecond, ?_⟩
    rw [standing_of_quantity isFirst (defined left leftMem),
      standing_of_quantity isSecond (defined right rightMem), samePlace]
  · obtain rfl := eq_of_length_le_one single leftMem rightMem
    exact (hashable left leftMem).agrees_self

/-- What agrees with the undefined number is the undefined number. -/
theorem defined_of_agrees (same : left.agrees right = true) (defined : left ≠ .float .nan) :
    right ≠ .float .nan := by
  rintro rfl
  cases left with
  | null | text | array | object => simp [Json.agrees] at same
  | boolean | integer | float =>
      obtain ⟨other, isOther, samePlace⟩ := (Json.agrees_iff_of_quantity rfl).mp same
      cases isOther
      rw [standing_of_quantity rfl defined] at samePlace
      cases samePlace

end SchemaOrder.CompareOptions
