import Mathlib.Data.List.Forall2
import Mathlib.Data.List.Nodup
import SchemaOrder.Order.Collator

/-!
# Stable sorting by name

Sorting keeps every thing, puts the names in order, and leaves things whose names are
level in the order they had. `eq_sort_iff` says that the last two facts determine the
sorted list, so that `NameOrder.sort` is the only stable arrangement; the other
theorems are its consequences. Where an order tells all names apart, as every order that
options of comparison ask for does, the arrangement no longer depends on the old one.
-/

namespace SchemaOrder.NameOrder

variable {α β : Type} {order : NameOrder} {name : α → Text} {things others : List α}

/-- Whether neither of two names comes strictly before the other one. -/
def isLevel (order : NameOrder) (left right : Text) : Bool :=
  order.isAtMost left right && order.isAtMost right left

/-- The names of the things come one after the other. -/
def InOrder (order : NameOrder) (name : α → Text) (things : List α) : Prop :=
  things.Pairwise fun left right => order.isAtMost (name left) (name right) = true

/-- Every name is level with itself. -/
theorem isLevel_self (order : NameOrder) (text : Text) : order.isLevel text text = true := by
  have comparable := order.total text text
  simpa [isLevel] using comparable

/-- Names that are both level with a third one come in either order. -/
theorem isAtMost_of_isLevel {level left right : Text}
    (first : order.isLevel level left = true) (second : order.isLevel level right = true) :
    order.isAtMost left right = true := by
  simp only [isLevel, Bool.and_eq_true] at first second
  exact order.trans _ _ _ first.2 second.1

/-- The comparison that sorting uses carries over a thing in between. -/
private theorem atMost_trans (order : NameOrder) (name : α → Text) (left middle right : α)
    (first : order.isAtMost (name left) (name middle) = true)
    (second : order.isAtMost (name middle) (name right) = true) :
    order.isAtMost (name left) (name right) = true :=
  order.trans _ _ _ first second

/-- The comparison that sorting uses compares any two things. -/
private theorem atMost_total (order : NameOrder) (name : α → Text) (left right : α) :
    (order.isAtMost (name left) (name right) ||
      order.isAtMost (name right) (name left)) = true := by
  simpa using order.total (name left) (name right)

/-- Sorting neither loses nor doubles a thing. -/
theorem sort_perm (order : NameOrder) (name : α → Text) (things : List α) :
    (order.sort name things).Perm things :=
  List.mergeSort_perm _ _

/-- Sorting loses nothing and adds nothing. -/
@[simp] theorem mem_sort {thing : α} : thing ∈ order.sort name things ↔ thing ∈ things :=
  List.mem_mergeSort

/-- Nothing is sorted to nothing. -/
@[simp] theorem sort_nil : order.sort name [] = [] :=
  List.mergeSort_nil

/-- The sorted things are in order. -/
theorem sort_inOrder (order : NameOrder) (name : α → Text) (things : List α) :
    order.InOrder name (order.sort name things) :=
  List.pairwise_mergeSort (atMost_trans order name) (atMost_total order name) things

/-- Things that are in order are left as they are. -/
theorem sort_eq_self (inOrder : order.InOrder name things) : order.sort name things = things :=
  List.mergeSort_of_pairwise inOrder

/-- Sorting is stable: the things whose names are level with a given one keep their order. -/
theorem filter_isLevel_sort (order : NameOrder) (name : α → Text) (things : List α)
    (level : Text) :
    (order.sort name things).filter (fun thing => order.isLevel level (name thing)) =
      things.filter fun thing => order.isLevel level (name thing) := by
  let isAt : α → Bool := fun thing => order.isLevel level (name thing)
  have levelInOrder : order.InOrder name (things.filter isAt) := by
    apply List.pairwise_of_forall_mem_list
    intro left leftMem right rightMem
    exact isAtMost_of_isLevel (List.mem_filter.mp leftMem).2 (List.mem_filter.mp rightMem).2
  have kept : (things.filter isAt).Sublist (order.sort name things) :=
    List.sublist_mergeSort (atMost_trans order name) (atMost_total order name)
      levelInOrder List.filter_sublist
  have keptAtLevel : (things.filter isAt).Sublist ((order.sort name things).filter isAt) := by
    have filtered := kept.filter isAt
    rwa [List.filter_filter, funext fun thing => Bool.and_self (isAt thing)] at filtered
  have sameLength : (things.filter isAt).length =
      ((order.sort name things).filter isAt).length :=
    ((sort_perm order name things).filter isAt).length_eq.symm
  exact (keptAtLevel.eq_of_length sameLength).symm

/-- Two lists in order that agree on the things of every level are the same list. -/
theorem eq_of_inOrder_of_filter_isLevel (first : order.InOrder name things)
    (second : order.InOrder name others)
    (levels : ∀ level, things.filter (fun thing => order.isLevel level (name thing)) =
      others.filter fun thing => order.isLevel level (name thing)) : things = others := by
  induction things generalizing others with
  | nil =>
      cases others with
      | nil => rfl
      | cons head tail =>
          have atHead := levels (name head)
          simp [isLevel_self] at atHead
  | cons head tail inductionHypothesis =>
      cases others with
      | nil =>
          have atHead := levels (name head)
          simp [isLevel_self] at atHead
      | cons otherHead otherTail =>
          obtain ⟨headFirst, tailInOrder⟩ := List.pairwise_cons.mp first
          obtain ⟨otherFirst, otherInOrder⟩ := List.pairwise_cons.mp second
          -- Each head stands somewhere in the other list, so neither comes strictly later.
          have headMem : head ∈ otherHead :: otherTail := by
            have mem : head ∈ (head :: tail).filter fun thing =>
                order.isLevel (name head) (name thing) := by simp [isLevel_self]
            rw [levels] at mem
            exact (List.mem_filter.mp mem).1
          have otherMem : otherHead ∈ head :: tail := by
            have mem : otherHead ∈ (otherHead :: otherTail).filter fun thing =>
                order.isLevel (name otherHead) (name thing) := by simp [isLevel_self]
            rw [← levels] at mem
            exact (List.mem_filter.mp mem).1
          have before : order.isAtMost (name head) (name otherHead) = true := by
            rcases List.mem_cons.mp otherMem with same | later
            · rw [same]
              exact (Bool.and_eq_true_iff.mp (isLevel_self order _)).1
            · exact headFirst _ later
          have after : order.isAtMost (name otherHead) (name head) = true := by
            rcases List.mem_cons.mp headMem with same | later
            · rw [same]
              exact (Bool.and_eq_true_iff.mp (isLevel_self order _)).1
            · exact otherFirst _ later
          have level : order.isLevel (name head) (name otherHead) = true := by
            simp [isLevel, before, after]
          have atHead := levels (name head)
          simp only [List.filter_cons, isLevel_self, level, if_true, List.cons.injEq] at atHead
          obtain ⟨sameHead, -⟩ := atHead
          subst sameHead
          have tails : tail = otherTail := by
            apply inductionHypothesis tailInOrder otherInOrder
            intro level
            have atLevel := levels level
            simp only [List.filter_cons] at atLevel
            split at atLevel
            · exact (List.cons.inj atLevel).2
            · exact atLevel
          rw [tails]

/-- The sorted list is the only list in order in which the things of every level stand as
they did. -/
theorem eq_sort_iff :
    others = order.sort name things ↔ order.InOrder name others ∧
      ∀ level, others.filter (fun thing => order.isLevel level (name thing)) =
        things.filter fun thing => order.isLevel level (name thing) := by
  constructor
  · rintro rfl
    exact ⟨sort_inOrder order name things, filter_isLevel_sort order name things⟩
  · rintro ⟨inOrder, levels⟩
    apply eq_of_inOrder_of_filter_isLevel inOrder (sort_inOrder order name things)
    intro level
    rw [levels, filter_isLevel_sort]

/-- Leaving things out and sorting can be done in either order. -/
theorem filter_sort (order : NameOrder) (name : α → Text) (keep : α → Bool) (things : List α) :
    (order.sort name things).filter keep = order.sort name (things.filter keep) := by
  rw [eq_sort_iff]
  constructor
  · exact List.Pairwise.filter keep (sort_inOrder order name things)
  · intro level
    rw [List.filter_filter, List.filter_filter]
    have swap : ∀ list : List α,
        list.filter (fun thing => order.isLevel level (name thing) && keep thing) =
          (list.filter fun thing => order.isLevel level (name thing)).filter keep := by
      intro list
      rw [List.filter_filter]
      congr 1
      funext thing
      exact Bool.and_comm _ _
    rw [swap, swap, filter_isLevel_sort]

/-- Changing things without renaming them and sorting can be done in either order. -/
theorem map_sort {name' : β → Text} {change : α → β}
    (names : ∀ thing ∈ things, name' (change thing) = name thing) :
    (order.sort name things).map change = order.sort name' (things.map change) := by
  apply List.map_mergeSort
  intro left leftMem right rightMem
  rw [names left leftMem, names right rightMem]

/-- The names of sorted things are the sorted names. -/
theorem map_name_sort (order : NameOrder) (name : α → Text) (things : List α) :
    (order.sort name things).map name = order.sortNames (things.map name) :=
  map_sort fun _ _ => rfl

/-- Sorted things have different names exactly if the things have. -/
theorem nodup_map_sort : ((order.sort name things).map name).Nodup ↔ (things.map name).Nodup :=
  ((sort_perm order name things).map name).nodup_iff

/-- Lists that correspond thing by thing, with the same names, do so when they are sorted. -/
theorem forall₂_sort {relation : α → β → Prop} {name' : β → Text}
    (names : ∀ left right, relation left right → name left = name' right)
    {lefts : List α} {rights : List β} (related : List.Forall₂ relation lefts rights) :
    List.Forall₂ relation (order.sort name lefts) (order.sort name' rights) := by
  have sameLength := related.length_eq
  let pairs := lefts.zip rights
  have pairsRelated : ∀ pair ∈ pairs, relation pair.1 pair.2 :=
    fun pair mem => List.forall₂_zip related mem
  let pairName : α × β → Text := fun pair => name pair.1
  have sortedLefts : (order.sort pairName pairs).map Prod.fst = order.sort name lefts := by
    have moved : (order.sort pairName pairs).map Prod.fst = order.sort name (pairs.map Prod.fst) :=
      map_sort fun _ _ => rfl
    rw [moved, List.map_fst_zip (Nat.le_of_eq sameLength)]
  have sortedRights : (order.sort pairName pairs).map Prod.snd = order.sort name' rights := by
    have moved : (order.sort pairName pairs).map Prod.snd = order.sort name' (pairs.map Prod.snd) :=
      map_sort fun pair mem => (names _ _ (pairsRelated pair mem)).symm
    rw [moved, List.map_snd_zip (Nat.le_of_eq sameLength.symm)]
  rw [← sortedLefts, ← sortedRights, List.forall₂_map_left_iff, List.forall₂_map_right_iff,
    List.forall₂_same]
  intro pair mem
  exact pairsRelated pair (mem_sort.mp mem)

/-- The test of neighbours finds out whether all names are in order. -/
theorem isOrdered_iff {names : List Text} :
    order.isOrdered names = true ↔ order.InOrder id names := by
  induction names with
  | nil => simp [isOrdered, InOrder]
  | cons first rest inductionHypothesis =>
      cases rest with
      | nil => simp [isOrdered, InOrder]
      | cons second others =>
          simp only [isOrdered, Bool.and_eq_true, inductionHypothesis]
          constructor
          · rintro ⟨step, inOrder⟩
            apply List.pairwise_cons.mpr ⟨?_, inOrder⟩
            intro later mem
            rcases List.mem_cons.mp mem with rfl | afterwards
            · exact step
            · exact order.trans _ _ _ step ((List.pairwise_cons.mp inOrder).1 later afterwards)
          · intro inOrder
            obtain ⟨first, rest⟩ := List.pairwise_cons.mp inOrder
            exact ⟨first second (by simp), rest⟩

/-- Names of things are in order exactly when the things are. -/
theorem inOrder_map_name :
    order.InOrder id (things.map name) ↔ order.InOrder name things := by
  simp [InOrder, List.pairwise_map]

/-- Names are in order exactly when sorting leaves the things as they are. -/
theorem isOrdered_map_iff :
    order.isOrdered (things.map name) = true ↔ order.sort name things = things := by
  rw [isOrdered_iff, inOrder_map_name]
  constructor
  · exact sort_eq_self
  · intro unchanged
    rw [← unchanged]
    exact sort_inOrder order name things

/-- An order that tells all names apart: names that come before each other are the same. -/
def TellsApart (order : NameOrder) : Prop :=
  ∀ left right, order.isAtMost left right = true → order.isAtMost right left = true → left = right

/-- The order by code point tells all names apart. -/
theorem byCodePoint_tellsApart : byCodePoint.TellsApart :=
  fun _ _ => Text.comesByRank_antisymm CodePoint.ext

/-- An order by keys tells apart what the order behind it tells apart. -/
theorem byKey_tellsApart (key : Text → Bytes) {otherwise : NameOrder}
    (tellsApart : otherwise.TellsApart) : (byKey key otherwise).TellsApart := by
  intro left right before after
  by_cases same : key left = key right
  · simp only [byKey, same, if_true] at before after
    exact tellsApart left right before after
  · have other : ¬ key right = key left := fun equal => same equal.symm
    simp only [byKey, same, other, if_false] at before after
    exact absurd (Text.comesByRank_antisymm UInt8.toNat_inj.mp before after) same

/-- Every order that options of comparison ask for tells all names apart, whatever the
collation is. -/
theorem ofOptions_tellsApart {collation : Collation} {options : Option CompareOptions}
    (accepted : ofOptions collation options = .ok order) : order.TellsApart := by
  cases options with
  | none =>
      cases accepted
      exact byCodePoint_tellsApart
  | some options =>
      simp only [ofOptions] at accepted
      cases settings : Collator.ofOptions options with
      | error fault => simp [settings, Except.map] at accepted
      | ok settings' =>
          simp only [settings, Except.map, Except.ok.injEq] at accepted
          rw [← accepted]
          exact byKey_tellsApart _ byCodePoint_tellsApart

/-- Where names are told apart, things with different names have one arrangement. -/
theorem sort_eq_of_perm (tellsApart : order.TellsApart) (unique : (things.map name).Nodup)
    (perm : things.Perm others) : order.sort name things = order.sort name others := by
  have sortedPerm : (order.sort name things).Perm (order.sort name others) :=
    (sort_perm order name things).trans (perm.trans (sort_perm order name others).symm)
  apply sortedPerm.eq_of_pairwise _ (sort_inOrder order name things)
    (sort_inOrder order name others)
  intro left right leftMem rightMem before after
  have rightMem' : right ∈ things := perm.mem_iff.mpr (mem_sort.mp rightMem)
  exact List.inj_on_of_nodup_map unique (mem_sort.mp leftMem) rightMem'
    (tellsApart _ _ before after)

/-- Where names are told apart, names have one arrangement, also with repetitions. -/
theorem sortNames_eq_of_perm (tellsApart : order.TellsApart) {names names' : List Text}
    (perm : names.Perm names') : order.sortNames names = order.sortNames names' := by
  have sortedPerm : (order.sortNames names).Perm (order.sortNames names') :=
    (sort_perm order id names).trans (perm.trans (sort_perm order id names').symm)
  apply sortedPerm.eq_of_pairwise _ (sort_inOrder order id names) (sort_inOrder order id names')
  intro left right _ _ before after
  exact tellsApart left right before after

end SchemaOrder.NameOrder
