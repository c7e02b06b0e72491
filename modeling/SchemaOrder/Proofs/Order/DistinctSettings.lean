import Mathlib.Data.List.Forall2
import Mathlib.Data.List.Perm.Subperm
import SchemaOrder.Order.Options
import SchemaOrder.Proofs.Json.EqualValues
import SchemaOrder.Proofs.Outcome

/-!
# Settings under distinct names

Settings are read so that each name stands once, whatever kinds of values the names are, and so
that a setting can be found by its name. Equality of settings pays no attention to their order:
`exists_perm_of_settingsAgree` says that equal settings are, one by one, equal to the others in some
order.
-/

namespace SchemaOrder.CompareOptions

open Outcome

variable {settings left middle right : List (Json × Json)}

/-- Every name stands once, and settings can be found by their names. -/
structure AreDistinct (settings : List (Json × Json)) : Prop where
  hashable : ∀ setting ∈ settings, setting.1.IsHashable
  apart : settings.Pairwise fun first second => first.1.agrees second.1 = false

/-- There are no names where there are no settings. -/
theorem AreDistinct.nil : AreDistinct [] :=
  ⟨nofun, .nil⟩

/-- Settings behind the first one are distinct. -/
theorem AreDistinct.tail {setting : Json × Json} (distinct : AreDistinct (setting :: settings)) :
    AreDistinct settings :=
  ⟨fun other mem => distinct.hashable other (List.mem_cons_of_mem _ mem),
    (List.pairwise_cons.mp distinct.apart).2⟩

/-- Settings of distinct names are the same if their names agree. -/
theorem AreDistinct.eq_of_agrees (distinct : AreDistinct settings) {first second : Json × Json}
    (firstMem : first ∈ settings) (secondMem : second ∈ settings)
    (agrees : first.1.agrees second.1 = true) : first = second := by
  induction settings with
  | nil => cases firstMem
  | cons head tail inductionHypothesis =>
      have fromHead := (List.pairwise_cons.mp distinct.apart).1
      rcases List.mem_cons.mp firstMem with rfl | firstLater
      · rcases List.mem_cons.mp secondMem with rfl | secondLater
        · rfl
        · exact absurd agrees (by simp [fromHead second secondLater])
      · rcases List.mem_cons.mp secondMem with rfl | secondLater
        · have back := (distinct.hashable first firstMem).agrees_symm agrees
          exact absurd back (by simp [fromHead first firstLater])
        · exact inductionHypothesis distinct.tail firstLater secondLater

/-- Setting a value brings in no name but its own. -/
theorem name_of_mem_setSetting {name value : Json} {setting : Json × Json}
    (mem : setting ∈ setSetting name value settings) :
    setting.1 = name ∨ ∃ known ∈ settings, setting.1 = known.1 := by
  induction settings with
  | nil =>
      rw [setSetting, List.mem_singleton] at mem
      exact .inl (congrArg Prod.fst mem)
  | cons head tail inductionHypothesis =>
      rw [setSetting] at mem
      split at mem
      · rcases List.mem_cons.mp mem with rfl | later
        · exact .inr ⟨head, List.mem_cons_self, rfl⟩
        · exact .inr ⟨setting, List.mem_cons_of_mem _ later, rfl⟩
      · rcases List.mem_cons.mp mem with rfl | later
        · exact .inr ⟨_, List.mem_cons_self, rfl⟩
        · rcases inductionHypothesis later with isName | ⟨known, knownMem, isKnown⟩
          · exact .inl isName
          · exact .inr ⟨known, List.mem_cons_of_mem _ knownMem, isKnown⟩

/-- Names stay distinct when a value is set. -/
theorem AreDistinct.setSetting {name : Json} (hashable : name.IsHashable) (value : Json)
    (distinct : AreDistinct settings) : AreDistinct (setSetting name value settings) := by
  refine ⟨fun setting mem => ?_, ?_⟩
  · rcases name_of_mem_setSetting mem with isName | ⟨known, knownMem, isKnown⟩
    · exact isName ▸ hashable
    · exact isKnown ▸ distinct.hashable known knownMem
  · induction settings with
    | nil => exact List.pairwise_singleton ..
    | cons head tail inductionHypothesis =>
        obtain ⟨fromHead, -⟩ := List.pairwise_cons.mp distinct.apart
        rw [CompareOptions.setSetting]
        split
        · exact List.pairwise_cons.mpr ⟨fromHead, distinct.tail.apart⟩
        · next other =>
          refine List.pairwise_cons.mpr ⟨fun setting mem => ?_, inductionHypothesis distinct.tail⟩
          rcases name_of_mem_setSetting mem with isName | ⟨known, knownMem, isKnown⟩
          · rw [isName]
            exact Bool.eq_false_iff.mpr other
          · rw [isKnown]
            exact fromHead known knownMem

/-- Names stay distinct when values are set one after the other. -/
theorem AreDistinct.foldl {α : Type} {things : List α} {name value : α → Json}
    (hashable : ∀ thing ∈ things, (name thing).IsHashable) (distinct : AreDistinct settings) :
    AreDistinct (things.foldl
      (fun known thing => CompareOptions.setSetting (name thing) (value thing) known)
      settings) := by
  induction things generalizing settings with
  | nil => exact distinct
  | cons head tail inductionHypothesis =>
      obtain ⟨headHashable, tailHashable⟩ := List.forall_mem_cons.mp hashable
      exact inductionHypothesis tailHashable (distinct.setSetting headHashable (value head))

/-- A name that has a digest is hashable. -/
theorem isHashable_of_digestOf {name : Json} {digest : Json.Digest}
    (isDigest : digestOf name = .ok digest) : name.IsHashable := by
  unfold digestOf at isDigest
  split at isDigest
  · next found => exact ⟨_, found⟩
  · cases isDigest

/-- The name of a pair that is read as a setting is hashable. -/
theorem isHashable_of_pairOf {index : Nat} {entry : Json} {pair : Json × Json}
    (isPair : pairOf index entry = .ok pair) : pair.1.IsHashable := by
  unfold pairOf at isPair
  cases listed : elements entry with
  | error fault =>
      rw [listed] at isPair
      cases isPair
  | ok parts =>
      rw [listed] at isPair
      obtain ⟨_, ⟨⟩, named⟩ := bind_eq_ok_iff.mp isPair
      dsimp only at named
      split at named
      · obtain ⟨digest, isDigest, same⟩ := bind_eq_ok_iff.mp named
        rw [← pure_eq_ok_iff.mp same]
        exact isHashable_of_digestOf isDigest
      · cases named

/-- Settings are read under distinct names. -/
theorem areDistinct_of_readSettings {value : Json} (isRead : readSettings value = .ok settings) :
    AreDistinct settings := by
  unfold readSettings at isRead
  split at isRead
  · cases isRead
    exact AreDistinct.nil.foldl fun member _ => Json.isHashable_text member.1
  · split at isRead
    · cases isRead
      exact .nil
    · obtain ⟨items, -, rest⟩ := bind_eq_ok_iff.mp isRead
      obtain ⟨pairs, arePairs, same⟩ := bind_eq_ok_iff.mp rest
      rw [← pure_eq_ok_iff.mp same]
      refine AreDistinct.nil.foldl fun pair mem => ?_
      obtain ⟨entry, -, isPair⟩ := exists_of_mem_mapM arePairs mem
      exact isHashable_of_pairOf isPair

/-- Options that stand for a JSON value have settings under distinct names. -/
theorem areDistinct_of_ofJson {value : Json} {options : CompareOptions}
    (isRead : ofJson value = .ok (some options)) : AreDistinct options.settings := by
  unfold ofJson at isRead
  split at isRead
  · cases isRead
  · simp only [bind_eq_ok_iff] at isRead
    obtain ⟨names, -, -, -, unknown, -, decided⟩ := isRead
    split at decided
    · cases decided
    · split at decided
      · simp only [bind_eq_ok_iff, pure_eq_ok_iff] at decided
        obtain ⟨settings, settingsRead, locales, -, same⟩ := decided
        cases same
        exact areDistinct_of_readSettings settingsRead
      · cases decided

/-- A setting is equal to another one: their names and their values are. -/
def SettingAgrees (first second : Json × Json) : Prop :=
  first.1.agrees second.1 = true ∧ first.2.agrees second.2 = true

/-- Settings that are equal one by one to distinct ones are different. -/
theorem AreDistinct.nodup_of_forall₂ (distinct : AreDistinct left)
    (agree : List.Forall₂ SettingAgrees left middle) : middle.Nodup := by
  induction agree with
  | nil => exact .nil
  | @cons first second lefts middles headAgrees tailAgree inductionHypothesis =>
      refine List.nodup_cons.mpr ⟨fun mem => ?_, inductionHypothesis distinct.tail⟩
      obtain ⟨other, otherMem, otherAgrees⟩ := exists_of_mem_forall₂ tailAgree mem
      -- Two settings that agree with one and the same setting would agree with each other.
      have otherHashable := distinct.hashable other (List.mem_cons_of_mem _ otherMem)
      have back := (distinct.hashable first List.mem_cons_self).agrees_trans headAgrees.1
        (otherHashable.agrees_symm otherAgrees.1)
      exact absurd back (by simp [(List.pairwise_cons.mp distinct.apart).1 other otherMem])

/-- Equal settings are equal one by one to the other settings in some order. -/
theorem exists_perm_of_settingsAgree (leftDistinct : AreDistinct left)
    (rightDistinct : AreDistinct right) (agree : settingsAgree left right = true) :
    ∃ middle, List.Forall₂ SettingAgrees left middle ∧ middle.Perm right := by
  simp only [settingsAgree, Bool.and_eq_true, decide_eq_true_eq, List.all_eq_true] at agree
  obtain ⟨sameLength, agreeing⟩ := agree
  have each : ∀ setting ∈ left, ∃ other, other ∈ right ∧ SettingAgrees setting other := by
    intro setting mem
    have agrees := agreeing setting mem
    split at agrees
    · next other found =>
      have otherMem := List.mem_of_find?_eq_some found
      have names := @List.find?_some _ (fun pair : Json × Json => pair.1.agrees setting.1) _ _ found
      exact ⟨other, otherMem, (rightDistinct.hashable other otherMem).agrees_symm names, agrees⟩
    · cases agrees
  obtain ⟨middle, areAgreeing, areRight⟩ := exists_forall₂_of_forall each
  have subperm := (leftDistinct.nodup_of_forall₂ areAgreeing).subperm areRight
  exact ⟨middle, areAgreeing, subperm.perm_of_length_le
    (by rw [← areAgreeing.length_eq, sameLength])⟩

end SchemaOrder.CompareOptions
