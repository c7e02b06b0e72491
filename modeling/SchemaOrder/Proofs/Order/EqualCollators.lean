import SchemaOrder.Proofs.Order.EqualOptions

/-!
# Collators of equal options

Equality of options goes by what values are worth, so that one and true are equal, while a collator
takes a flag only as a truth value. Apart from that, equal options are alike: they describe the
same collator, or are both refused in the same way. `ofOptions_of_agrees` says so, and that the one
exception is a flag which one of them gives as a truth value and the other one as a number.
-/

namespace SchemaOrder

open Outcome

namespace CompareOptions

/-- A name of a wrong kind stands, up to equality, among the names without repetition. -/
theorem exists_mem_distinct {names : List Json} (hashable : ∀ name ∈ names, name.IsHashable)
    {name : Json} (mem : name ∈ names) : ∃ known ∈ distinct names, name.agrees known = true := by
  have general : ∀ known : List Json,
      let result := names.foldl
        (fun known name => if known.any name.agrees then known else known ++ [name]) known
      (∀ old ∈ known, old ∈ result) ∧
        ∀ name ∈ names, ∃ kept ∈ result, name.agrees kept = true := by
    clear mem
    induction names with
    | nil => exact fun known => ⟨fun _ mem => mem, nofun⟩
    | cons head tail inductionHypothesis =>
        intro known
        obtain ⟨headHashable, tailHashable⟩ := List.forall_mem_cons.mp hashable
        dsimp only
        rw [List.foldl_cons]
        split
        · next isKnown =>
          obtain ⟨kept, keeps⟩ := inductionHypothesis tailHashable known
          obtain ⟨old, oldMem, agrees⟩ := List.any_eq_true.mp isKnown
          exact ⟨kept, List.forall_mem_cons.mpr ⟨⟨old, kept old oldMem, agrees⟩, keeps⟩⟩
        · obtain ⟨kept, keeps⟩ := inductionHypothesis tailHashable (known ++ [head])
          exact ⟨fun old oldMem => kept old (List.mem_append_left _ oldMem),
            List.forall_mem_cons.mpr
              ⟨⟨head, kept head (by simp), headHashable.agrees_self⟩, keeps⟩⟩
  exact (general []).2 name mem

/-- Names are refused as values of the wrong kind, if they are refused. -/
theorem unknownNames_failsWithin (known : List Text) (names : List Json) :
    FailsWithin (fun fault => fault.kind = .mismatch) (unknownNames known names) := by
  unfold unknownNames
  refine (checkComparable_failsWithin _).bind fun _ =>
    FailsWithin.mapM (fun (name, index) => ?_) _
  cases name with
  | text => exact .ok _
  | null | boolean | integer | float | array | object => exact .error rfl

/-- A name that is no text is refused. -/
theorem unknownNames_of_notText (known : List Text) {names : List Json}
    (hashable : ∀ name ∈ names, name.IsHashable) {name : Json} (mem : name ∈ names)
    (notText : ∀ content, name ≠ .text content) :
    ∃ fault, unknownNames known names = .error fault ∧ fault.kind = .mismatch := by
  cases result : unknownNames known names with
  | error fault => exact ⟨fault, rfl, unknownNames_failsWithin known names fault result⟩
  | ok texts =>
      exfalso
      obtain ⟨other, otherMem, agrees⟩ := exists_mem_distinct hashable mem
      have otherNotText : ∀ content, other ≠ .text content := by
        rintro content rfl
        exact notText content (agrees_text_iff.mp agrees)
      have isUnknown : other ∈ (distinct names).filter fun name =>
          !known.any fun text => name.agrees (.text text) := by
        simp [otherMem, agrees_text_iff, otherNotText]
      unfold unknownNames at result
      obtain ⟨_, -, read⟩ := bind_eq_ok_iff.mp result
      obtain ⟨index, atIndex⟩ := List.mem_iff_getElem?.mp (List.mem_mergeSort.mpr isUnknown)
      obtain ⟨text, -, isRead⟩ := exists_of_mem_forall₂ (forall₂_of_mapM read).flip
        (List.mk_mem_zipIdx_iff_getElem?.mpr atIndex)
      cases other with
      | text content => exact otherNotText content rfl
      | null | boolean | integer | float | array | object => cases isRead

end CompareOptions

namespace Collator

/-- The settings that have to be true or false. -/
def flagNames : List Text := ["numeric", "ignorePunctuation"]

/-- Values that agree are the same if one of them is a text or both are truth values. -/
theorem eq_of_agrees {first second : Json} (same : first.agrees second = true)
    (plain : (∃ content, first = .text content) ∨ (∃ content, second = .text content) ∨
      ∃ flag other, first = .boolean flag ∧ second = .boolean other) : first = second := by
  rcases plain with ⟨content, rfl⟩ | ⟨content, rfl⟩ | ⟨flag, other, rfl, rfl⟩
  · exact (Json.text_agrees_iff.mp same).symm
  · exact CompareOptions.agrees_text_iff.mp same
  · cases flag <;> cases other <;> first | rfl | cases same

variable {given middle given' : List (Text × Json)} {locales locales' : Locales}
  {entries : List Json}

/-- What is accepted for a setting is a text, or a truth value for a flag. -/
theorem Accepts.plain (accepts : Accepts given entries) {setting : Text × Json}
    (mem : setting ∈ given) : (∃ content, setting.2 = .text content) ∨
      setting.1 ∈ flagNames ∧ ∃ flag, setting.2 = .boolean flag := by
  obtain ⟨name, value⟩ := setting
  have known := accepts.known _ mem
  simp only [knownSettings, List.mem_cons, List.not_mem_nil, or_false] at known
  rcases known with rfl | rfl | rfl | rfl
  · obtain ⟨word, -, isWord⟩ := accepts.sensitivity value mem
    exact .inl ⟨word, isWord⟩
  · exact .inr ⟨by simp [flagNames], accepts.numeric value mem⟩
  · obtain ⟨word, -, isWord⟩ := accepts.caseFirst value mem
    exact .inl ⟨word, isWord⟩
  · exact .inr ⟨by simp [flagNames], accepts.ignorePunctuation value mem⟩

/-- What is accepted is accepted in any order. -/
theorem Accepts.of_perm (accepts : Accepts given entries) (perm : given'.Perm given) :
    Accepts given' entries where
  known setting mem := accepts.known setting (perm.mem_iff.mp mem)
  sensitivity value mem := accepts.sensitivity value (perm.mem_iff.mp mem)
  numeric value mem := accepts.numeric value (perm.mem_iff.mp mem)
  caseFirst value mem := accepts.caseFirst value (perm.mem_iff.mp mem)
  ignorePunctuation value mem := accepts.ignorePunctuation value (perm.mem_iff.mp mem)
  tags := accepts.tags

/-- The same settings in another order describe the same collator. -/
theorem ofOptions_of_perm (unique : (given.map Prod.fst).Nodup) (perm : given'.Perm given)
    (sameLocales : locales'.toList = locales.toList) {settings : CollatorSettings}
    (isMade : ofOptions ⟨locales, CompareOptions.ofGiven given⟩ = .ok settings) :
    ofOptions ⟨locales', CompareOptions.ofGiven given'⟩ = .ok settings := by
  have unique' : (given'.map Prod.fst).Nodup := (perm.map Prod.fst).nodup_iff.mpr unique
  obtain ⟨accepts, describes⟩ := (ofOptions_eq_ok_iff unique).mp isMade
  have accepts' := accepts.of_perm perm
  obtain ⟨settings', describes'⟩ := accepts'.exists_describes
  rw [ofOptions_eq_ok_iff unique', sameLocales]
  exact ⟨accepts', describes.eq_of_perm unique perm rfl describes' ▸ describes'⟩

/-- A setting is equal to another one: their names are the same and their values agree. -/
def GivenAgrees (first second : Text × Json) : Prop :=
  first.1 = second.1 ∧ first.2.agrees second.2 = true

/-- Of no flag that the first settings give as a truth value do the second ones give another
value. -/
def KeepsFlags (given given' : List (Text × Json)) : Prop :=
  ∀ name ∈ flagNames, ∀ flag value, (name, .boolean flag) ∈ given → (name, value) ∈ given' →
    ∃ other, value = .boolean other

/-- Settings that are accepted are the same as equal ones that keep their flags. -/
theorem Accepts.eq_of_keepsFlags (accepts : Accepts given entries)
    (agree : List.Forall₂ GivenAgrees given middle) (keeps : KeepsFlags given middle) :
    given = middle := by
  rw [← List.forall₂_eq_eq_eq]
  refine (forall₂_mem agree).imp fun setting other ⟨⟨mem, mem'⟩, sameName, same⟩ => ?_
  refine Prod.ext sameName (eq_of_agrees same ?_)
  rcases accepts.plain mem with isText | ⟨isFlag, flag, isValue⟩
  · exact .inl isText
  · obtain ⟨flag', isValue'⟩ := keeps setting.1 isFlag flag other.2 (isValue ▸ mem)
      (sameName ▸ mem')
    exact .inr (.inr ⟨flag, flag', isValue, isValue'⟩)

/-- Settings are the same as equal ones that are accepted, if they keep the flags of these. -/
theorem Accepts.eq_of_keepsFlags' (accepts : Accepts middle entries)
    (agree : List.Forall₂ GivenAgrees given middle) (keeps : KeepsFlags middle given) :
    given = middle := by
  rw [← List.forall₂_eq_eq_eq]
  refine (forall₂_mem agree).imp fun setting other ⟨⟨mem, mem'⟩, sameName, same⟩ => ?_
  refine Prod.ext sameName (eq_of_agrees same ?_)
  rcases accepts.plain mem' with isText | ⟨isFlag, flag, isValue⟩
  · exact .inr (.inl isText)
  · obtain ⟨flag', isValue'⟩ := keeps other.1 isFlag flag setting.2 (isValue ▸ mem')
      (sameName ▸ mem)
    exact .inr (.inr ⟨flag', flag, isValue', isValue⟩)

/-- Equal locales are the same list if one of them has texts only. -/
theorem toList_eq_of_agrees (same : locales.agrees locales' = true)
    (texts : (∀ entry ∈ locales.toList, ∃ tag, entry = .text tag) ∨
      ∀ entry ∈ locales'.toList, ∃ tag, entry = .text tag) : locales.toList = locales'.toList := by
  cases locales with
  | unset =>
      cases locales' with
      | unset => rfl
      | single | listed => cases same
  | single tag =>
      cases locales' with
      | single other =>
          obtain rfl : tag = other := by simpa [Locales.agrees] using same
          rfl
      | unset | listed => cases same
  | listed entries =>
      cases locales' with
      | unset | single => cases same
      | listed entries' =>
          have agree := forall₂_mem (CompareOptions.forall₂_of_itemsAgree same)
          rw [Locales.toList, Locales.toList, ← List.forall₂_eq_eq_eq]
          refine agree.imp fun entry other same => eq_of_agrees same.2 ?_
          exact texts.imp (fun each => each entry same.1.1) fun each => .inl (each other same.1.2)

end Collator

namespace CompareOptions

/-- One of two options gives a flag as a truth value and the other one as a number that is equal
to it. -/
def GivesAsNumber (options others : CompareOptions) (name : Text) : Prop :=
  ∃ flag number, options.setting? name = some (.boolean flag) ∧
    others.setting? name = some number ∧ (Json.boolean flag).agrees number = true ∧
    ∀ other, number ≠ .boolean other

variable {options others : CompareOptions}

/-- The value of a setting is the one that is given under its name. -/
theorem setting?_eq_some_iff {locales : Locales} {given : List (Text × Json)}
    (unique : (given.map Prod.fst).Nodup) {name : Text} {value : Json} :
    (⟨locales, ofGiven given⟩ : CompareOptions).setting? name = some value ↔
      (name, value) ∈ given := by
  rw [setting?_ofGiven, Option.map_eq_some_iff]
  constructor
  · rintro ⟨setting, found, rfl⟩
    obtain ⟨mem, rfl⟩ := Named.of_find?_eq_some found
    exact mem
  · intro mem
    exact ⟨(name, value), (Named.find?_eq_some_iff unique).mpr ⟨mem, rfl⟩, rfl⟩

/-- Equal settings under texts are given one by one, and then in another order. -/
theorem exists_given_of_settingsAgree (distinct : AreDistinct options.settings)
    (distinct' : AreDistinct others.settings)
    (agree : settingsAgree options.settings others.settings = true)
    (texts : ∀ setting ∈ options.settings, ∃ name, setting.1 = .text name) :
    ∃ given middle given', options.settings = ofGiven given ∧ others.settings = ofGiven given' ∧
      (given.map Prod.fst).Nodup ∧ List.Forall₂ Collator.GivenAgrees given middle ∧
      middle.Perm given' := by
  obtain ⟨between, areAgreeing, perm⟩ := exists_perm_of_settingsAgree distinct distinct' agree
  have betweenTexts : ∀ setting ∈ between, ∃ name, setting.1 = .text name := by
    intro other mem
    obtain ⟨setting, settingMem, agrees⟩ := exists_of_mem_forall₂ areAgreeing mem
    exact (Json.exists_text_iff_of_agrees agrees.1).mp (texts setting settingMem)
  obtain ⟨given, isGiven⟩ := exists_ofGiven texts
  obtain ⟨middle, rfl⟩ := exists_ofGiven betweenTexts
  obtain ⟨given', isGiven'⟩ := exists_ofGiven fun setting mem =>
    betweenTexts setting (perm.mem_iff.mpr mem)
  rw [isGiven] at distinct areAgreeing
  rw [isGiven'] at perm
  have injective : Function.Injective fun setting : Text × Json =>
      (Json.text setting.1, setting.2) := by
    rintro ⟨_, _⟩ ⟨_, _⟩ same
    simpa using same
  refine ⟨given, middle, given', isGiven, isGiven', ?_, ?_,
    (List.map_perm_map_iff injective).mp perm⟩
  · have apart := distinct.apart
    rw [ofGiven, List.pairwise_map] at apart
    refine List.pairwise_map.mpr (apart.imp fun {first second} differ same => ?_)
    simp [Json.agrees, same] at differ
  · rw [ofGiven, ofGiven, List.forall₂_map_left_iff, List.forall₂_map_right_iff] at areAgreeing
    exact areAgreeing.imp fun first second agrees =>
      ⟨by simpa [Json.agrees] using agrees.1, agrees.2⟩

end CompareOptions

namespace Collator

open CompareOptions

variable {given middle given' : List (Text × Json)} {locales locales' : Locales}

/-- Of two options the first ones are accepted, with a flag that is a truth value, and the others
are refused as options of comparison, where that flag is the number equal to it. -/
def RefusesFlag (accepted refused : CompareOptions) : Prop :=
  ∃ name ∈ flagNames, GivesAsNumber accepted refused name ∧
    (∃ settings, ofOptions accepted = .ok settings) ∧
    ∃ fault, ofOptions refused = .error fault ∧ fault.kind = .collation

/-- Equal settings have the same names. -/
theorem names_eq_of_agree (agree : List.Forall₂ GivenAgrees given middle) :
    middle.map Prod.fst = given.map Prod.fst :=
  map_eq_map_of_forall₂ agree fun _ _ same => same.1.symm

/-- Equal settings have equal values under a name. -/
theorem agrees_of_mem (unique : (given.map Prod.fst).Nodup)
    (agree : List.Forall₂ GivenAgrees given middle) {name : Text} {value value' : Json}
    (mem : (name, value) ∈ given) (mem' : (name, value') ∈ middle) :
    value.agrees value' = true := by
  obtain ⟨other, otherMem, sameName, same⟩ := exists_of_mem_forall₂ agree mem'
  have isSetting : other = (name, value) :=
    List.inj_on_of_nodup_map unique otherMem mem sameName
  rwa [isSetting] at same

/-- Where flags are not kept, one of them is given as a number. -/
theorem givesAsNumber_of_not_keepsFlags (unique : (given.map Prod.fst).Nodup)
    (unique' : (given'.map Prod.fst).Nodup)
    (agree : ∀ {name flag value}, (name, .boolean flag) ∈ given → (name, value) ∈ given' →
      (Json.boolean flag).agrees value = true)
    (notKept : ¬ KeepsFlags given given') : ∃ name ∈ flagNames,
      GivesAsNumber ⟨locales, ofGiven given⟩ ⟨locales', ofGiven given'⟩ name := by
  unfold KeepsFlags at notKept
  push Not at notKept
  obtain ⟨name, isFlag, flag, value, mem, mem', notFlag⟩ := notKept
  exact ⟨name, isFlag, flag, value, (setting?_eq_some_iff unique).mpr mem,
    (setting?_eq_some_iff unique').mpr mem', agree mem mem', notFlag⟩

/-- The entries of lists of accepted tags are texts. -/
theorem texts_of_tags {entries : List Json}
    (tags : ∀ entry ∈ entries, ∃ tag, entry = .text tag ∧ IsAcceptedTag tag) :
    ∀ entry ∈ entries, ∃ tag, entry = .text tag := fun entry mem => by
  obtain ⟨tag, isText, -⟩ := tags entry mem
  exact ⟨tag, isText⟩

/-- What is made of settings is made of equal ones that keep their flags. -/
theorem ofOptions_of_keepsFlags (unique : (given.map Prod.fst).Nodup)
    (agree : List.Forall₂ GivenAgrees given middle) (perm : middle.Perm given')
    (sameLocales : locales.agrees locales' = true) (keeps : KeepsFlags given given')
    {settings : CollatorSettings} (isMade : ofOptions ⟨locales, ofGiven given⟩ = .ok settings) :
    ofOptions ⟨locales', ofGiven given'⟩ = .ok settings := by
  obtain ⟨accepts, -⟩ := (ofOptions_eq_ok_iff unique).mp isMade
  obtain rfl := accepts.eq_of_keepsFlags agree
    fun name isFlag flag value mem mem' => keeps name isFlag flag value mem (perm.mem_iff.mp mem')
  have lists := toList_eq_of_agrees sameLocales (.inl (texts_of_tags accepts.tags))
  exact ofOptions_of_perm unique perm.symm lists.symm isMade

/-- What is made of settings is made of those that they are equal to, if these keep their flags. -/
theorem ofOptions_of_keepsFlags' (unique' : (given'.map Prod.fst).Nodup)
    (agree : List.Forall₂ GivenAgrees given middle) (perm : middle.Perm given')
    (sameLocales : locales.agrees locales' = true) (keeps : KeepsFlags given' given)
    {settings : CollatorSettings} (isMade : ofOptions ⟨locales', ofGiven given'⟩ = .ok settings) :
    ofOptions ⟨locales, ofGiven given⟩ = .ok settings := by
  obtain ⟨accepts, -⟩ := (ofOptions_eq_ok_iff unique').mp isMade
  obtain rfl := (accepts.of_perm perm).eq_of_keepsFlags' agree
    fun name isFlag flag value mem mem' => keeps name isFlag flag value (perm.mem_iff.mp mem) mem'
  have lists := toList_eq_of_agrees sameLocales (.inr (texts_of_tags accepts.tags))
  exact ofOptions_of_perm unique' perm lists isMade

/-- Where equal settings are accepted, every flag is a truth value there. -/
theorem keepsFlags_of_ofOptions (unique' : (given'.map Prod.fst).Nodup)
    (agree : ∀ {name flag value}, (name, .boolean flag) ∈ given → (name, value) ∈ given' →
      (Json.boolean flag).agrees value = true)
    {settings : CollatorSettings} (isMade : ofOptions ⟨locales', ofGiven given'⟩ = .ok settings) :
    KeepsFlags given given' := by
  obtain ⟨accepts, -⟩ := (ofOptions_eq_ok_iff unique').mp isMade
  intro name isFlag flag value mem mem'
  rcases accepts.plain mem' with ⟨content, isText⟩ | ⟨-, isValue⟩
  · have same := agree mem mem'
    dsimp only at isText
    rw [isText, agrees_text_iff] at same
    cases same
  · exact isValue

/-- Equal settings under texts describe the same collator or are both refused, unless a flag is a
number where the other settings, which are accepted, have a truth value. -/
theorem ofOptions_ofGiven_agrees (unique : (given.map Prod.fst).Nodup)
    (agree : List.Forall₂ GivenAgrees given middle) (perm : middle.Perm given')
    (sameLocales : locales.agrees locales' = true) :
    let options : CompareOptions := ⟨locales, ofGiven given⟩
    let others : CompareOptions := ⟨locales', ofGiven given'⟩
    Parallel (fun fault fault' => fault.kind = fault'.kind) Eq (ofOptions options)
        (ofOptions others) ∨
      RefusesFlag options others ∨ RefusesFlag others options := by
  intro options others
  have middleUnique : (middle.map Prod.fst).Nodup := names_eq_of_agree agree ▸ unique
  have unique' : (given'.map Prod.fst).Nodup := (perm.map Prod.fst).nodup_iff.mp middleUnique
  have agreeing {name : Text} {value value' : Json} (mem : (name, value) ∈ given)
      (mem' : (name, value') ∈ given') : value.agrees value' = true :=
    agrees_of_mem unique agree mem (perm.mem_iff.mpr mem')
  have fails : FailsWithin (fun fault => fault.kind = .collation) (ofOptions options) :=
    ofOptions_failsWithin
  have othersFail : FailsWithin (fun fault => fault.kind = .collation) (ofOptions others) :=
    ofOptions_failsWithin
  cases made : ofOptions options with
  | ok settings =>
      cases othersMade : ofOptions others with
      | ok settings' =>
          have keeps : KeepsFlags given given' :=
            keepsFlags_of_ofOptions unique' agreeing othersMade
          have sameMade := ofOptions_of_keepsFlags unique agree perm sameLocales keeps made
          exact .inl (.ok (Except.ok.inj (sameMade.symm.trans othersMade)))
      | error fault =>
          have notKept : ¬ KeepsFlags given given' := fun keeps => by
            have sameMade := ofOptions_of_keepsFlags unique agree perm sameLocales keeps made
            cases sameMade.symm.trans othersMade
          obtain ⟨name, isFlag, gives⟩ :=
            givesAsNumber_of_not_keepsFlags unique unique' agreeing notKept
          exact .inr (.inl ⟨name, isFlag, gives, ⟨settings, made⟩, fault, othersMade,
            othersFail fault othersMade⟩)
  | error fault =>
      cases othersMade : ofOptions others with
      | ok settings' =>
          have notKept : ¬ KeepsFlags given' given := fun keeps => by
            have sameMade :=
              ofOptions_of_keepsFlags' unique' agree perm sameLocales keeps othersMade
            cases sameMade.symm.trans made
          obtain ⟨name, isFlag, gives⟩ := givesAsNumber_of_not_keepsFlags unique' unique
            (fun mem mem' => Json.agrees_symm_of_quantity rfl (agreeing mem' mem)) notKept
          exact .inr (.inr ⟨name, isFlag, gives, ⟨settings', othersMade⟩, fault, made,
            fails fault made⟩)
      | error fault' =>
          exact .inl (.error ((fails fault made).trans (othersFail fault' othersMade).symm))

/-- A name that is no text has equals that are no texts, so that equal options are both refused for
it. -/
theorem ofOptions_of_notText {options others : CompareOptions}
    (distinct : AreDistinct options.settings) (distinct' : AreDistinct others.settings)
    (agree : settingsAgree options.settings others.settings = true)
    (notTexts : ¬ ∀ setting ∈ options.settings, ∃ name, setting.1 = .text name) :
    Parallel (fun fault fault' => fault.kind = fault'.kind) Eq (ofOptions options)
      (ofOptions others) := by
  have refused : ∀ {options : CompareOptions}, AreDistinct options.settings →
      (¬ ∀ setting ∈ options.settings, ∃ name, setting.1 = .text name) →
      ∃ fault, ofOptions options = .error fault ∧ fault.kind = .mismatch := by
    intro options distinct notTexts
    push Not at notTexts
    obtain ⟨setting, mem, notText⟩ := notTexts
    obtain ⟨fault, fails, isMismatch⟩ := unknownNames_of_notText knownSettings
      (List.forall_mem_map.mpr distinct.hashable) (List.mem_map_of_mem mem) notText
    refine ⟨fault, ?_, isMismatch⟩
    unfold ofOptions
    rw [fails]
    rfl
  obtain ⟨middle, areAgreeing, perm⟩ := exists_perm_of_settingsAgree distinct distinct' agree
  have othersNotTexts : ¬ ∀ setting ∈ others.settings, ∃ name, setting.1 = .text name := by
    intro texts
    refine notTexts ((forall_mem_iff_of_forall₂ areAgreeing fun setting other agrees =>
      Json.exists_text_iff_of_agrees agrees.1).mpr fun setting mem => ?_)
    exact texts setting (perm.mem_iff.mp mem)
  obtain ⟨fault, fails, isMismatch⟩ := refused distinct notTexts
  obtain ⟨fault', fails', isMismatch'⟩ := refused distinct' othersNotTexts
  rw [fails, fails']
  exact .error (isMismatch.trans isMismatch'.symm)

/-- Options that are equal, made of any two JSON values, describe one collator, by which all names
are compared alike, or are both refused in the same way. The one exception is a flag which the one
of them that is accepted gives as a truth value and the other one as the number equal to it: a flag
has to be a truth value, and the other one is refused as options of comparison. -/
theorem ofOptions_of_agrees {value value' : Json} {options others : CompareOptions}
    (isRead : CompareOptions.ofJson value = .ok (some options))
    (isRead' : CompareOptions.ofJson value' = .ok (some others))
    (same : options.agrees others = true) :
    (∃ settings, ofOptions options = .ok settings ∧ ofOptions others = .ok settings ∧
        ∀ collation, NameOrder.ofJson collation value = .ok (.collated (collation settings)) ∧
          NameOrder.ofJson collation value' = .ok (.collated (collation settings))) ∨
      (∃ fault fault', ofOptions options = .error fault ∧ ofOptions others = .error fault' ∧
        fault.kind = fault'.kind) ∨
      RefusesFlag options others ∨ RefusesFlag others options := by
  have distinct := areDistinct_of_ofJson isRead
  have distinct' := areDistinct_of_ofJson isRead'
  obtain ⟨localesAgree, agree⟩ := Bool.and_eq_true_iff.mp same
  have outcome : Parallel (fun fault fault' => fault.kind = fault'.kind) Eq (ofOptions options)
      (ofOptions others) ∨ RefusesFlag options others ∨ RefusesFlag others options := by
    by_cases texts : ∀ setting ∈ options.settings, ∃ name, setting.1 = .text name
    · obtain ⟨given, middle, given', isGiven, isGiven', unique, areAgreeing, perm⟩ :=
        exists_given_of_settingsAgree distinct distinct' agree texts
      have decided := ofOptions_ofGiven_agrees unique areAgreeing perm localesAgree
      rwa [← isGiven, ← isGiven'] at decided
    · exact .inl (ofOptions_of_notText distinct distinct' agree texts)
  rcases outcome with parallel | exception
  · rcases parallel.outcome with ⟨settings, _, made, othersMade, rfl⟩ | refused
    · refine .inl ⟨settings, made, othersMade, fun collation => ?_⟩
      have order {value : Json} {options : CompareOptions}
          (isRead : CompareOptions.ofJson value = .ok (some options))
          (made : ofOptions options = .ok settings) :
          NameOrder.ofJson collation value = .ok (.collated (collation settings)) := by
        rw [NameOrder.ofJson, isRead]
        exact congrArg (Except.map _) made
      exact ⟨order isRead made, order isRead' othersMade⟩
    · exact .inr (.inl refused)
  · exact .inr (.inr exception)

/-- Flags that are truth values are accepted. -/
theorem accepts_of_flags
    (flags : ∀ setting ∈ given, setting.1 ∈ flagNames ∧ ∃ flag, setting.2 = .boolean flag) :
    Accepts given [] where
  known setting mem := (by decide : ∀ name ∈ flagNames, name ∈ knownSettings) _ (flags _ mem).1
  sensitivity _ mem := absurd (flags _ mem).1 (by dsimp only; decide)
  numeric _ mem := (flags _ mem).2
  caseFirst _ mem := absurd (flags _ mem).1 (by dsimp only; decide)
  ignorePunctuation _ mem := (flags _ mem).2
  tags := nofun

/-- Options with two flags in an object. -/
def orderedOptions : Json :=
  .object [("options",
    .object [("numeric", .boolean true), ("ignorePunctuation", .boolean false)])]

/-- The same flags in another order in a list of pairs, and no locales. -/
def pairedOptions : Json :=
  .object [("locales", .null), ("options", .array [
    .array [.text "ignorePunctuation", .boolean false], .array [.text "numeric", .boolean true]])]

/-- The two are equal, and they describe one collator. -/
theorem ofOptions_of_agrees_pairedOptions : ∃ options others settings,
    CompareOptions.ofJson orderedOptions = .ok (some options) ∧
      CompareOptions.ofJson pairedOptions = .ok (some others) ∧ options.agrees others = true ∧
      ofOptions options = .ok settings ∧ ofOptions others = .ok settings := by
  let given : List (Text × Json) :=
    [("numeric", .boolean true), ("ignorePunctuation", .boolean false)]
  let options : CompareOptions := ⟨.unset, ofGiven given⟩
  let others : CompareOptions := ⟨.unset, ofGiven given.reverse⟩
  have isRead : CompareOptions.ofJson orderedOptions = .ok (some options) :=
    ofJson_object (by decide)
  have isRead' : CompareOptions.ofJson pairedOptions = .ok (some others) :=
    ofJson_object (by decide)
  have same : options.agrees others = true := by decide
  have unique : (given.map Prod.fst).Nodup := by decide
  have accepts : Accepts given [] := accepts_of_flags (by simp [given, flagNames])
  obtain ⟨settings, describes⟩ := accepts.exists_describes
  have made : ofOptions options = .ok settings :=
    (ofOptions_eq_ok_iff unique).mpr ⟨accepts, describes⟩
  have othersMade : ofOptions others = .ok settings :=
    ofOptions_of_perm unique given.reverse_perm rfl made
  rcases ofOptions_of_agrees isRead isRead' same with ⟨settings', first, second, -⟩ |
    ⟨_, _, refused, -⟩ | ⟨_, -, -, -, _, refused, -⟩ | ⟨_, -, -, -, _, refused, -⟩
  · exact ⟨options, others, settings', isRead, isRead', same, first, second⟩
  · cases made.symm.trans refused
  · cases othersMade.symm.trans refused
  · cases made.symm.trans refused

/-- Options with one setting, to go by the worth of digits. -/
def digitOptions (flag : Json) : Json :=
  .object [("options", .object [("numeric", flag)])]

/-- Options that set a flag to true and options that set it to one are equal, and yet only the first
ones are accepted. -/
theorem ofOptions_refuses_one : ∃ options others,
    CompareOptions.ofJson (digitOptions (.boolean true)) = .ok (some options) ∧
      CompareOptions.ofJson (digitOptions (.integer 1)) = .ok (some others) ∧
      options.agrees others = true ∧ (∃ settings, ofOptions options = .ok settings) ∧
      ∃ fault, ofOptions others = .error fault ∧ fault.kind = .collation := by
  let givenAs (flag : Json) : List (Text × Json) := [("numeric", flag)]
  have isRead (flag : Json) : CompareOptions.ofJson (digitOptions flag) =
      .ok (some ⟨.unset, ofGiven (givenAs flag)⟩) := by
    have known : ∀ member ∈ [(Text.ofString "options", Json.object (givenAs flag))],
        member.1 ∈ knownMembers := by simp [knownMembers]
    exact ofJson_object known
  have unique (flag : Json) : ((givenAs flag).map Prod.fst).Nodup := List.nodup_singleton _
  have accepts : Accepts (givenAs (.boolean true)) [] :=
    accepts_of_flags (by simp [givenAs, flagNames])
  obtain ⟨settings, describes⟩ := accepts.exists_describes
  refine ⟨_, _, isRead _, isRead _, by decide,
    ⟨settings, (ofOptions_eq_ok_iff (unique _)).mpr ⟨accepts, describes⟩⟩, ?_⟩
  cases made : ofOptions ⟨.unset, ofGiven (givenAs (.integer 1))⟩ with
  | ok settings =>
      obtain ⟨accepts, -⟩ := (ofOptions_eq_ok_iff (unique _)).mp made
      obtain ⟨flag, isFlag⟩ := accepts.numeric (.integer 1) (List.mem_singleton_self _)
      cases isFlag
  | error fault => exact ⟨fault, rfl, ofOptions_failsWithin fault made⟩
end Collator

end SchemaOrder
