import SchemaOrder.Proofs.Order.StableSort

/-!
# Paired orders

Two orders make a third one, in which the second order only decides between names that the
first one leaves level. `sort_sort` says that sorting by one order and then by another one
is a single stable sort by such a pair; a sort that is done twice is therefore done once, and
an order that tells all names apart leaves nothing over for an earlier one.
-/

namespace SchemaOrder.NameOrder

variable {α : Type} {first second : NameOrder}

/-- The order by one order, and by another one between names that the first leaves level: the
order by pairs of keys, compared from the left. -/
def andThen (first second : NameOrder) : NameOrder where
  isAtMost left right :=
    first.isAtMost left right && (!first.isAtMost right left || second.isAtMost left right)
  total left right := by
    have comparable := first.total left right
    have comparableNext := second.total left right
    cases before : first.isAtMost left right <;> cases after : first.isAtMost right left <;>
      simp_all
  trans left middle right leftMiddle middleRight := by
    simp only [Bool.and_eq_true, Bool.or_eq_true, Bool.not_eq_true'] at leftMiddle middleRight ⊢
    obtain ⟨early, earlyNext⟩ := leftMiddle
    obtain ⟨late, lateNext⟩ := middleRight
    refine ⟨first.trans _ _ _ early late, ?_⟩
    cases back : first.isAtMost right left with
    | false => exact .inl rfl
    | true =>
        -- All three names are level in the first order, so that the second one decides twice.
        have middleBack := first.trans _ _ _ late back
        have rightBack := first.trans _ _ _ back early
        rw [middleBack] at earlyNext
        rw [rightBack] at lateNext
        simp only [Bool.true_eq_false, false_or] at earlyNext lateNext
        exact .inr (second.trans _ _ _ earlyNext lateNext)

/-- In a pair of orders names come one after the other if they do so in the first order, and in
the second one where the first leaves them level. -/
theorem isAtMost_andThen_iff {left right : Text} :
    (first.andThen second).isAtMost left right = true ↔ first.isAtMost left right = true ∧
      (first.isAtMost right left = true → second.isAtMost left right = true) := by
  cases back : first.isAtMost right left <;> simp [andThen, back]

/-- Names are level in a pair of orders if they are level in both. -/
theorem isLevel_andThen_iff {left right : Text} :
    (first.andThen second).isLevel left right = true ↔
      first.isLevel left right = true ∧ second.isLevel left right = true := by
  simp only [isLevel, Bool.and_eq_true, isAtMost_andThen_iff]
  tauto

/-- Orders that compare names alike are the same. -/
theorem eq_of_isAtMost_iff
    (same : ∀ left right, first.isAtMost left right = true ↔ second.isAtMost left right = true) :
    first = second := by
  have sameComparison : first.isAtMost = second.isAtMost := by
    funext left right
    exact Bool.eq_iff_iff.mpr (same left right)
  cases first
  cases second
  cases sameComparison
  rfl

/-- A pair of an order with itself is the order. -/
theorem andThen_self (order : NameOrder) : order.andThen order = order := by
  apply eq_of_isAtMost_iff
  intro left right
  rw [isAtMost_andThen_iff]
  exact ⟨And.left, fun before => ⟨before, fun _ => before⟩⟩

/-- Where the first order of a pair tells all names apart, the second one is not asked. -/
theorem andThen_of_tellsApart (tellsApart : first.TellsApart) (second : NameOrder) :
    first.andThen second = first := by
  apply eq_of_isAtMost_iff
  intro left right
  rw [isAtMost_andThen_iff]
  refine ⟨And.left, fun before => ⟨before, fun after => ?_⟩⟩
  rw [tellsApart left right before after]
  simpa using second.total right right

/-- Things that are in a pair of orders are in the first order. -/
theorem InOrder.of_andThen {name : α → Text} {things : List α}
    (inOrder : (first.andThen second).InOrder name things) : first.InOrder name things :=
  inOrder.imp fun before => (isAtMost_andThen_iff.mp before).1

/-- Things that the second sort leaves level still stand as the first one put them, so that
sorting twice is sorting once by the pair of the two orders. -/
theorem sort_sort (first second : NameOrder) (name : α → Text) (things : List α) :
    second.sort name (first.sort name things) = (second.andThen first).sort name things := by
  rw [eq_sort_iff]
  constructor
  · rw [InOrder, List.pairwise_iff_forall_sublist]
    intro left right standing
    have bySecond := List.pairwise_iff_forall_sublist.mp
      (sort_inOrder second name (first.sort name things)) standing
    refine isAtMost_andThen_iff.mpr ⟨bySecond, fun back => ?_⟩
    let isAt : α → Bool := fun thing => second.isLevel (name left) (name thing)
    have leftAt : isAt left = true := isLevel_self second (name left)
    have rightAt : isAt right = true := by simp [isAt, isLevel, bySecond, back]
    have standingLevel := standing.filter isAt
    simp only [List.filter_cons, leftAt, rightAt, if_true, List.filter_nil, isAt] at standingLevel
    rw [filter_isLevel_sort] at standingLevel
    exact List.pairwise_iff_forall_sublist.mp (sort_inOrder first name things)
      (standingLevel.trans List.filter_sublist)
  · intro level
    have split : ∀ list : List α,
        list.filter (fun thing => (second.andThen first).isLevel level (name thing)) =
          (list.filter fun thing => second.isLevel level (name thing)).filter
            fun thing => first.isLevel level (name thing) := by
      intro list
      rw [List.filter_filter]
      congr 1
      funext thing
      rw [Bool.eq_iff_iff, isLevel_andThen_iff, Bool.and_eq_true, and_comm]
    rw [split, split, filter_isLevel_sort, List.filter_comm, filter_isLevel_sort, List.filter_comm]

/-- Names that are sorted twice are sorted once by the pair of the two orders. -/
theorem sortNames_sortNames (first second : NameOrder) (names : List Text) :
    second.sortNames (first.sortNames names) = (second.andThen first).sortNames names :=
  sort_sort first second id names

/-- Sorting the front part of a list first makes no difference to sorting all of it. -/
theorem sort_append_sort (order : NameOrder) (name : α → Text) (things others : List α) :
    order.sort name (order.sort name things ++ others) = order.sort name (things ++ others) := by
  rw [eq_sort_iff]
  refine ⟨sort_inOrder order name _, fun level => ?_⟩
  rw [filter_isLevel_sort, List.filter_append, List.filter_append, filter_isLevel_sort]

end SchemaOrder.NameOrder
