import SchemaOrder.Proofs.Order.AcceptedOptions
import SchemaOrder.Proofs.Order.DistinctSettings
import SchemaOrder.Proofs.Order.RankedNames
import SchemaOrder.Proofs.Parallel

/-!
# Equal options

Options are equal whatever order their settings are in and whatever kinds of numbers they hold,
and have to be found again in hashed collections by any options they are equal to. Their digest is
taken along the settings in the order of their names; `sorted_settings_agree` says that equal
options are, one by one, equal along this order, and `digest_of_agrees` that they are found again or
are both refused.
-/

namespace SchemaOrder.CompareOptions

open Outcome

variable {left middle right : List (Json × Json)}

/-- The names of equal settings have a common order together. -/
theorem haveOrder_iff_of_forall₂ (agree : List.Forall₂ SettingAgrees left right) :
    HaveOrder (left.map Prod.fst) ↔ HaveOrder (right.map Prod.fst) := by
  simp only [HaveOrder, List.forall_mem_map, List.length_map, agree.length_eq,
    forall_mem_iff_of_forall₂ agree fun _ _ agrees => Json.exists_text_iff_of_agrees agrees.1,
    forall_mem_iff_of_forall₂ agree fun _ _ agrees => Json.exists_quantity_iff_of_agrees agrees.1]

/-- Whether names have a common order does not depend on the order they are given in. -/
theorem haveOrder_iff_of_perm {names others : List Json} (perm : names.Perm others) :
    HaveOrder names ↔ HaveOrder others := by
  simp only [HaveOrder, perm.mem_iff, perm.length_eq]

/-- The settings in the order in which their names rank. -/
def ranked (settings : List (Json × Json)) : List (Json × Json) :=
  settings.mergeSort fun first second => ranksBefore first.1 second.1

/-- Ranking settings neither loses nor doubles one. -/
theorem ranked_perm (settings : List (Json × Json)) : (ranked settings).Perm settings :=
  List.mergeSort_perm _ _

/-- Ranked settings stand in the order of their names. -/
theorem ranked_inOrder (settings : List (Json × Json)) :
    (ranked settings).Pairwise fun first second => ranksBefore first.1 second.1 = true := by
  apply List.pairwise_mergeSort
  · exact fun _ _ _ => ranksBefore_trans
  · exact fun _ _ => ranksBefore_total _ _

/-- Settings that are equal one by one are so when they are ranked. -/
theorem forall₂_ranked (agree : List.Forall₂ SettingAgrees left right) :
    List.Forall₂ SettingAgrees (ranked left) (ranked right) := by
  let pairs := left.zip right
  let sorted := pairs.mergeSort fun first second => ranksBefore first.1.1 second.1.1
  have paired : ∀ pair ∈ pairs, SettingAgrees pair.1 pair.2 :=
    fun pair mem => List.forall₂_zip agree mem
  have sortedLeft : sorted.map Prod.fst = ranked left := by
    have moved : sorted.map Prod.fst = ranked (pairs.map Prod.fst) :=
      List.map_mergeSort fun _ _ _ _ => rfl
    rw [moved, List.map_fst_zip agree.length_eq.le]
  have sortedRight : sorted.map Prod.snd = ranked right := by
    have moved : sorted.map Prod.snd = ranked (pairs.map Prod.snd) := by
      refine List.map_mergeSort fun first firstMem second secondMem => ?_
      obtain ⟨firstPlace, firstSpelling⟩ := rank_eq_of_agrees (paired first firstMem).1
      obtain ⟨secondPlace, secondSpelling⟩ := rank_eq_of_agrees (paired second secondMem).1
      simp only [ranksBefore, firstPlace, firstSpelling, secondPlace, secondSpelling]
    rw [moved, List.map_snd_zip agree.length_eq.ge]
  rw [← sortedLeft, ← sortedRight, List.forall₂_map_left_iff, List.forall₂_map_right_iff,
    List.forall₂_same]
  exact fun pair mem => paired pair (List.mem_mergeSort.mp mem)

/-- Sorting by name is ranking, where the names have a common order. -/
theorem mergeSort_nameAtMost (haveOrder : HaveOrder (left.map Prod.fst))
    (defined : ∀ setting ∈ left, setting.1 ≠ .float .nan) :
    (left.mergeSort fun first second => nameAtMost first.1 second.1) = ranked left := by
  have sameComparison : ∀ first ∈ left, ∀ second ∈ left,
      nameAtMost first.1 second.1 = ranksBefore (id first).1 (id second).1 :=
    fun first firstMem second secondMem => nameAtMost_eq_ranksBefore haveOrder
      (List.forall_mem_map.mpr defined) (List.mem_map_of_mem firstMem)
      (List.mem_map_of_mem secondMem)
  have moved : (left.mergeSort fun first second => nameAtMost first.1 second.1).map id =
      ranked (left.map id) := List.map_mergeSort sameComparison
  rwa [List.map_id, List.map_id] at moved

/-- Distinct settings are ranked in one way, whatever order they are given in. -/
theorem ranked_eq_of_perm (distinct : AreDistinct right) (perm : middle.Perm right)
    (haveOrder : HaveOrder (right.map Prod.fst))
    (defined : ∀ setting ∈ right, setting.1 ≠ .float .nan) : ranked middle = ranked right := by
  have sortedPerm := (ranked_perm middle).trans (perm.trans (ranked_perm right).symm)
  refine sortedPerm.eq_of_pairwise (fun first second firstMem secondMem before after => ?_)
    (ranked_inOrder middle) (ranked_inOrder right)
  have firstRight := perm.mem_iff.mp ((ranked_perm middle).mem_iff.mp firstMem)
  have secondRight := (ranked_perm right).mem_iff.mp secondMem
  exact distinct.eq_of_agrees firstRight secondRight (agrees_of_ranksBefore haveOrder
    (List.forall_mem_map.mpr defined) (List.forall_mem_map.mpr distinct.hashable)
    (List.mem_map_of_mem firstRight) (List.mem_map_of_mem secondRight) before after)

/-- Equal settings are equal one by one along the order of their names. -/
theorem sorted_settings_agree (distinct : AreDistinct right)
    (agree : List.Forall₂ SettingAgrees left middle) (perm : middle.Perm right)
    (haveOrder : HaveOrder (left.map Prod.fst))
    (defined : ∀ setting ∈ left, setting.1 ≠ .float .nan) :
    List.Forall₂ SettingAgrees
      (left.mergeSort fun first second => nameAtMost first.1 second.1)
      (right.mergeSort fun first second => nameAtMost first.1 second.1) := by
  have rightOrder : HaveOrder (right.map Prod.fst) :=
    (haveOrder_iff_of_perm (perm.map _)).mp ((haveOrder_iff_of_forall₂ agree).mp haveOrder)
  have rightDefined : ∀ setting ∈ right, setting.1 ≠ .float .nan := by
    intro other mem
    obtain ⟨setting, settingMem, agrees⟩ := exists_of_mem_forall₂ agree (perm.mem_iff.mpr mem)
    exact defined_of_agrees agrees.1 (defined setting settingMem)
  rw [mergeSort_nameAtMost haveOrder defined, mergeSort_nameAtMost rightOrder rightDefined,
    ← ranked_eq_of_perm distinct perm rightOrder rightDefined]
  exact forall₂_ranked agree

/-- What options are refused with that have no digest. -/
def BothMismatch (fault fault' : OptionFault) : Prop :=
  fault.kind = .mismatch ∧ fault'.kind = .mismatch

/-- Equal values have one digest or are both refused. -/
theorem digestOf_parallel {value other : Json} (same : value.agrees other = true) :
    Parallel BothMismatch Eq (digestOf value) (digestOf other) := by
  unfold digestOf
  rw [Json.digest_eq_of_agrees same]
  cases other.digest with
  | ok digest => exact .ok rfl
  | error kind => exact .error ⟨rfl, rfl⟩

/-- Lists that agree do so at every place. -/
theorem forall₂_of_itemsAgree {items others : List Json}
    (same : Json.itemsAgree items others = true) :
    List.Forall₂ (fun item other => item.agrees other = true) items others := by
  induction items generalizing others with
  | nil =>
      cases others with
      | nil => exact .nil
      | cons => simp [Json.itemsAgree] at same
  | cons head tail inductionHypothesis =>
      cases others with
      | nil => simp [Json.itemsAgree] at same
      | cons first rest =>
          rw [Json.itemsAgree, Bool.and_eq_true] at same
          exact .cons same.1 (inductionHypothesis same.2)

/-- Equal locales have one digest or are both refused. -/
theorem localesDigest_parallel {locales others : Locales}
    (same : locales.agrees others = true) :
    Parallel BothMismatch Eq (localesDigest locales) (localesDigest others) := by
  cases locales with
  | unset =>
      cases others with
      | unset => exact .ok rfl
      | single | listed => cases same
  | single tag =>
      cases others with
      | single other =>
          obtain rfl : tag = other := by simpa [Locales.agrees] using same
          exact digestOf_parallel (Json.text_agrees_iff.mpr rfl)
      | unset | listed => cases same
  | listed entries =>
      cases others with
      | listed entries' =>
          have each := (forall₂_of_itemsAgree same).imp fun _ _ => digestOf_parallel
          refine (Parallel.mapM each).map fun digests others areSame => ?_
          rw [List.forall₂_eq_eq_eq] at areSame
          rw [areSame]
      | unset | single => cases same

/-- Names that are refused have no common order. -/
theorem checkComparable_failsWithin (names : List Json) :
    FailsWithin (fun fault => fault.kind = .mismatch) (checkComparable names) := by
  induction names with
  | nil => exact .ok ()
  | cons first others inductionHypothesis =>
      cases others with
      | nil => exact .ok ()
      | cons second rest =>
          rw [checkComparable]
          split
          · exact inductionHypothesis
          · exact .error rfl

/-- Names have a common order or are refused. -/
theorem checkComparable_parallel {names others : List Json}
    (together : HaveOrder names ↔ HaveOrder others) :
    Parallel BothMismatch (fun _ _ => HaveOrder names) (checkComparable names)
      (checkComparable others) := by
  have fails := checkComparable_failsWithin names
  have othersFail := checkComparable_failsWithin others
  rw [← checkComparable_eq_ok_iff, ← checkComparable_eq_ok_iff] at together
  simp only [← checkComparable_eq_ok_iff]
  cases compared : checkComparable names with
  | ok =>
      rw [together.mp compared]
      exact .ok rfl
  | error fault =>
      cases othersCompared : checkComparable others with
      | ok =>
          rw [together.mpr othersCompared] at compared
          cases compared
      | error fault' => exact .error ⟨fails fault compared, othersFail fault' othersCompared⟩

variable {options others : CompareOptions}

/-- Equal options are sorted by their names into settings that are equal one by one, or both have
names without a common order. -/
theorem sortedSettings_parallel (distinct : AreDistinct options.settings)
    (othersDistinct : AreDistinct others.settings)
    (agree : settingsAgree options.settings others.settings = true)
    (defined : ∀ setting ∈ options.settings, setting.1 ≠ .float .nan) :
    Parallel BothMismatch (List.Forall₂ SettingAgrees) options.sortedSettings
      others.sortedSettings := by
  obtain ⟨middle, areAgreeing, perm⟩ := exists_perm_of_settingsAgree distinct othersDistinct agree
  have together : HaveOrder (options.settings.map Prod.fst) ↔
      HaveOrder (others.settings.map Prod.fst) :=
    (haveOrder_iff_of_forall₂ areAgreeing).trans (haveOrder_iff_of_perm (perm.map _))
  exact (checkComparable_parallel together).bind fun _ _ haveOrder =>
    .ok (sorted_settings_agree othersDistinct areAgreeing perm haveOrder defined)

/-- The digest of a pair of a name and a value. -/
theorem pairDigest_parallel {setting other : Json × Json} (agrees : SettingAgrees setting other) :
    Parallel BothMismatch Eq
      (do
        let name ← digestOf setting.1
        let value ← digestOf setting.2
        pure (Json.Digest.tuple [name, value]))
      (do
        let name ← digestOf other.1
        let value ← digestOf other.2
        pure (Json.Digest.tuple [name, value])) :=
  (digestOf_parallel agrees.1).bindSame fun _ =>
    (digestOf_parallel agrees.2).bindSame fun _ => .ok rfl

/-- Equal options have one digest, or both are refused. -/
theorem digest_parallel (distinct : AreDistinct options.settings)
    (othersDistinct : AreDistinct others.settings)
    (defined : ∀ setting ∈ options.settings, setting.1 ≠ .float .nan)
    (same : options.agrees others = true) :
    Parallel BothMismatch Eq options.digest others.digest := by
  obtain ⟨localesAgree, agree⟩ := Bool.and_eq_true_iff.mp same
  refine (sortedSettings_parallel distinct othersDistinct agree defined).bind ?_
  intro settings settings' areAgreeing
  refine (localesDigest_parallel localesAgree).bindSame fun locales => ?_
  refine (Parallel.mapM (areAgreeing.imp fun _ _ => pairDigest_parallel)).bind ?_
  intro pairs pairs' arePairs
  rw [List.forall₂_eq_eq_eq] at arePairs
  rw [arePairs]
  exact .ok rfl

/-- Options that are equal, made of any two JSON values, either have the same digest, so that a set
of both has one member, or are both refused as values of the wrong kind. -/
theorem digest_of_agrees {value value' : Json} (isRead : ofJson value = .ok (some options))
    (isRead' : ofJson value' = .ok (some others))
    (defined : ∀ setting ∈ options.settings, setting.1 ≠ .float .nan)
    (same : options.agrees others = true) :
    (∃ digest, options.digest = .ok digest ∧ others.digest = .ok digest ∧
        sameDigest (some options) (some others) = .ok true ∧
        setSize (some options) (some others) = .ok 1) ∨
      ∃ fault fault', options.digest = .error fault ∧ others.digest = .error fault' ∧
        fault.kind = .mismatch ∧ fault'.kind = .mismatch := by
  rcases (digest_parallel (areDistinct_of_ofJson isRead) (areDistinct_of_ofJson isRead') defined
    same).outcome with ⟨digest, _, digested, othersDigested, rfl⟩ | refused
  · have sameDigests : sameDigest (some options) (some others) = .ok true := by
      simp only [sameDigest, optionalDigest, digested, othersDigested]
      exact congrArg Except.ok (Json.Digest.same_self digest)
    refine .inl ⟨digest, digested, othersDigested, sameDigests, ?_⟩
    unfold setSize
    rw [sameDigests]
    simp only [optionalAgrees, same]
    rfl
  · exact .inr refused

/-- Options with two locales, and settings under two numbers in a list of pairs. -/
def numberedOptions : Json :=
  .object [("locales", .array [.text "cs-CZ", .text "en"]),
    ("options", .array [.array [.integer 1, .boolean true], .array [.float (.exactly 2), .null]])]

/-- The same options in another order and under other numbers that are equal to the first. -/
def renumberedOptions : Json :=
  .object [("options", .array [.array [.integer 2, .null], .array [.boolean true, .integer 1]]),
    ("locales", .array [.text "cs-CZ", .text "en"])]

/-- The two are equal, and a set of them has one member. -/
theorem digest_of_agrees_numberedOptions : ∃ options others digest,
    ofJson numberedOptions = .ok (some options) ∧ ofJson renumberedOptions = .ok (some others) ∧
      options.agrees others = true ∧ options.digest = .ok digest ∧ others.digest = .ok digest ∧
      setSize (some options) (some others) = .ok 1 := by
  let locales : Locales := .listed [.text "cs-CZ", .text "en"]
  let options : CompareOptions :=
    ⟨locales, [(.integer 1, .boolean true), (.float (.exactly 2), .null)]⟩
  let others : CompareOptions := ⟨locales, [(.integer 2, .null), (.boolean true, .integer 1)]⟩
  have isRead : ofJson numberedOptions = .ok (some options) := ofJson_object (by decide)
  have isRead' : ofJson renumberedOptions = .ok (some others) := ofJson_object (by decide)
  have same : options.agrees others = true := by decide
  have sorted : options.sortedSettings = .ok options.settings := by
    have inOrder : options.settings.Pairwise fun first second =>
      nameAtMost first.1 second.1 = true := by decide
    exact congrArg Except.ok (List.mergeSort_of_pairwise inOrder)
  have digested : ∃ digest, options.digest = .ok digest := by
    unfold digest
    rw [sorted]
    exact ⟨_, rfl⟩
  obtain ⟨digest, isDigest⟩ := digested
  have defined : ∀ setting ∈ options.settings, setting.1 ≠ .float .nan := by
    simp [options, Binary64.exactly]
  rcases digest_of_agrees isRead isRead' defined same with
    ⟨_, firstDigest, secondDigest, -, oneMember⟩ | ⟨_, _, refused, -⟩
  · exact ⟨options, others, _, isRead, isRead', same, firstDigest, secondDigest, oneMember⟩
  · rw [isDigest] at refused
    cases refused
end SchemaOrder.CompareOptions
