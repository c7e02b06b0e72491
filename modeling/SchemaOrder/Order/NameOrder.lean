import SchemaOrder.Text.Utf8

/-!
# Orders of names

This module holds what a schema is sorted by: a relation between names that is total
and transitive, so that sorting by it is determined up to names that it does not tell
apart. It holds the orders the library offers, the stable sort of anything that has a
name, and the test whether names are in order.
-/

namespace SchemaOrder

/-- An order of names in which different names may be level with each other. -/
structure NameOrder where
  /-- Whether the first name comes before the second one or is level with it. -/
  isAtMost : Text → Text → Bool
  /-- Any two names can be compared. -/
  total : ∀ left right, isAtMost left right = true ∨ isAtMost right left = true
  /-- The comparison carries over a name in between. -/
  trans : ∀ left middle right, isAtMost left middle = true → isAtMost middle right = true →
    isAtMost left right = true

namespace NameOrder

/-- The order of names by a number given to each of them. -/
def byRank (rank : Text → Int) : NameOrder where
  isAtMost left right := rank left ≤ rank right
  total left right := by simp only [decide_eq_true_eq]; omega
  trans left middle right := by simp only [decide_eq_true_eq]; omega

/-- The order of names by code point. -/
def byCodePoint : NameOrder where
  isAtMost := Text.isAtMost
  total := Text.comesByRank_total CodePoint.value
  trans _ _ _ := Text.comesByRank_trans CodePoint.value

/-- The order of names by their lengths. -/
def byLength : NameOrder :=
  byRank fun name => name.length

/-- The order in which all names are level. -/
def constant : NameOrder :=
  byRank fun _ => 0

/-- The order of names by the bytes of a key, and by another order where the keys are
the same. -/
def byKey (key : Text → Bytes) (otherwise : NameOrder) : NameOrder where
  isAtMost left right :=
    if key left = key right then otherwise.isAtMost left right
    else Text.comesByRank UInt8.toNat (key left) (key right)
  total left right := by
    by_cases same : key left = key right
    · simpa [same] using otherwise.total left right
    · have other : ¬ key right = key left := fun equal => same equal.symm
      simpa [same, other] using Text.comesByRank_total UInt8.toNat (key left) (key right)
  trans left middle right first second := by
    have antisymm {one two : Bytes} (before : Text.comesByRank UInt8.toNat one two = true)
        (after : Text.comesByRank UInt8.toNat two one = true) : one = two :=
      Text.comesByRank_antisymm UInt8.toNat_inj.mp before after
    by_cases leftMiddle : key left = key middle <;> by_cases middleRight : key middle = key right
    · simp only [leftMiddle, middleRight, if_true] at *
      exact otherwise.trans _ _ _ first second
    · simpa [leftMiddle, middleRight] using second
    · rw [middleRight] at leftMiddle
      simpa [leftMiddle, middleRight] using first
    · simp only [leftMiddle, middleRight, if_false] at first second
      have third := Text.comesByRank_trans UInt8.toNat first second
      by_cases leftRight : key left = key right
      · rw [leftRight] at first
        exact absurd (antisymm second first) middleRight
      · simpa [leftRight] using third

/-- The order by collation keys. Names whose keys are the same stand by code point. -/
def collated (key : Text → Bytes) : NameOrder :=
  byKey key byCodePoint

/-- Things sorted by their names. Things whose names are level keep their places. -/
def sort {α : Type} (order : NameOrder) (name : α → Text) (things : List α) : List α :=
  things.mergeSort fun left right => order.isAtMost (name left) (name right)

/-- Names sorted. -/
def sortNames (order : NameOrder) (names : List Text) : List Text :=
  order.sort id names

/-- Whether every name comes before the next one or is level with it. -/
def isOrdered (order : NameOrder) : List Text → Bool
  | [] => true
  | [_] => true
  | first :: second :: rest =>
    order.isAtMost first second && isOrdered order (second :: rest)

end NameOrder

end SchemaOrder
