import SchemaOrder.Proofs.Order.AcceptedOptions
import SchemaOrder.Proofs.Order.StableSort
import SchemaOrder.Proofs.Outcome

/-!
# The sorted arrangement of names

Names may be repeated, and a collation may give one key to many of them. All the same, an order
that options of comparison ask for puts names in one arrangement: where keys are equal, the names
themselves decide by code point, so that only equal names are level. `ofOptions_arranges` says that
this is the one arrangement that the test of neighbours accepts. For any order at all, also one
with level names that are different, the test accepts what sorting leaves as it is.
-/

namespace SchemaOrder.NameOrder

open Collator Outcome

variable {order other : NameOrder} {names arrangement : List Text}

/-- Orders that compare the names of a list alike sort it alike. -/
theorem sortNames_congr (alike : ∀ left ∈ names, ∀ right ∈ names,
    order.isAtMost left right = other.isAtMost left right) :
    order.sortNames names = other.sortNames names := by
  have sorted : (order.sortNames names).map id = other.sortNames (names.map id) :=
    List.map_mergeSort alike
  rwa [List.map_id, List.map_id] at sorted

/-- Names with one key stand among the sorted names as the order behind the keys sorts them. -/
theorem filter_sortNames_byKey (key : Text → Bytes) (otherwise : NameOrder) (names : List Text)
    (shared : Bytes) :
    ((byKey key otherwise).sortNames names).filter (fun name => key name = shared) =
      otherwise.sortNames (names.filter fun name => key name = shared) := by
  have alike : ∀ left ∈ names.filter fun name => key name = shared,
      ∀ right ∈ names.filter fun name => key name = shared,
        (byKey key otherwise).isAtMost left right = otherwise.isAtMost left right := by
    intro left leftMem right rightMem
    have sameKey : key left = key right :=
      (of_decide_eq_true (List.mem_filter.mp leftMem).2).trans
        (of_decide_eq_true (List.mem_filter.mp rightMem).2).symm
    simp [byKey, sameKey]
  rw [← sortNames_congr alike]
  exact filter_sort (byKey key otherwise) id _ names

/-- Sorted names pass the test of neighbours. -/
theorem isOrdered_sortNames (order : NameOrder) (names : List Text) :
    order.isOrdered (order.sortNames names) = true :=
  isOrdered_iff.mpr (sort_inOrder order id names)

/-- Names pass the test of neighbours exactly if sorting leaves them as they are. -/
theorem isOrdered_iff_sortNames_eq :
    order.isOrdered names = true ↔ order.sortNames names = names := by
  have decided : order.isOrdered (names.map id) = true ↔ order.sort id names = names :=
    isOrdered_map_iff
  rwa [List.map_id] at decided

/-- Where names are told apart, the sorted arrangement is the one that passes the test. -/
theorem isOrdered_iff_eq_sortNames (tellsApart : order.TellsApart)
    (perm : arrangement.Perm names) :
    order.isOrdered arrangement = true ↔ arrangement = order.sortNames names := by
  rw [isOrdered_iff_sortNames_eq, sortNames_eq_of_perm tellsApart perm]
  exact eq_comm

/-- Of all arrangements of names, repeated ones among them, exactly one passes the test of
neighbours, if the order comes from options of comparison or from none, and sorting makes it of
every arrangement. Without options it is the one by code point; with options, names with one
collation key stand in it by code point, whatever the collation is. By any order whatsoever, names
pass the test exactly if sorting leaves them as they are. -/
theorem ofOptions_arranges {collation : Collation} {options : Option CompareOptions}
    (accepted : ofOptions collation options = .ok order) (names : List Text) :
    (∃! arrangement, arrangement.Perm names ∧ order.isOrdered arrangement = true) ∧
      (∀ others, others.Perm names → (order.sortNames others).Perm names ∧
        order.isOrdered (order.sortNames others) = true) ∧
      (options = none → order.sortNames names = byCodePoint.sortNames names) ∧
      (∀ given, options = some given → ∃ settings, Collator.ofOptions given = .ok settings ∧
        ∀ key, (order.sortNames names).filter (fun name => collation settings name = key) =
          byCodePoint.sortNames (names.filter fun name => collation settings name = key)) ∧
      ∀ (anyOrder : NameOrder) (anyNames : List Text),
        anyOrder.isOrdered anyNames = true ↔ anyOrder.sortNames anyNames = anyNames := by
  have tellsApart := ofOptions_tellsApart accepted
  refine ⟨⟨order.sortNames names, ⟨sort_perm order id names, isOrdered_sortNames order names⟩, ?_⟩,
    fun others perm => ⟨(sort_perm order id others).trans perm, isOrdered_sortNames order others⟩,
    ?_, ?_, fun _ _ => isOrdered_iff_sortNames_eq⟩
  · rintro arrangement ⟨perm, isOrdered⟩
    exact (isOrdered_iff_eq_sortNames tellsApart perm).mp isOrdered
  · rintro rfl
    cases accepted
    rfl
  · rintro given rfl
    obtain ⟨settings, isMade, rfl⟩ := map_eq_ok_iff.mp accepted
    exact ⟨settings, isMade, filter_sortNames_byKey (collation settings) byCodePoint names⟩

/-- A collation that gives all names one key leaves them to their code points. -/
theorem ofOptions_arranges_oneKey : ∃ order,
    ofOptions (fun _ _ => []) (some ⟨.unset, []⟩) = .ok order ∧
      order.sortNames ["b", "a", "C", "b"] = (["C", "a", "b", "b"] : List Text) := by
  have accepts : Accepts [] [] := ⟨nofun, nofun, nofun, nofun, nofun, nofun⟩
  obtain ⟨settings, describes⟩ := accepts.exists_describes
  have isMade : Collator.ofOptions ⟨.unset, []⟩ = .ok settings :=
    (@ofOptions_eq_ok_iff [] .unset .nil settings).mpr ⟨accepts, describes⟩
  have accepted : ofOptions (fun _ _ => []) (some ⟨.unset, []⟩) =
      .ok (collated fun _ => []) := by
    rw [ofOptions, isMade]
    rfl
  obtain ⟨⟨arrangement, _, isOnly⟩, sorted, -⟩ :=
    ofOptions_arranges accepted ["b", "a", "C", "b"]
  refine ⟨_, accepted, ?_⟩
  rw [isOnly _ (sorted _ (.refl _)), isOnly ["C", "a", "b", "b"] ⟨by decide, by decide⟩]

end SchemaOrder.NameOrder
