import SchemaOrder.Order.AsciiCollation
import SchemaOrder.Order.Collator
import SchemaOrder.Proofs.Collections
import SchemaOrder.Proofs.Document.Lines
import SchemaOrder.Proofs.Outcome

/-!
# Options that are accepted

Which options describe a collator is said here without the checks that find it out: locales are
language tags by their grammar, and every setting is one of its words or a flag. The collator that
accepted options describe follows from their settings, in whatever order these are given, and from
the first locale. `ofJson_accepts` puts this together for a JSON value.
-/

namespace SchemaOrder

open CodePoint (ofChar)
open Outcome

namespace CompareOptions

/-- Settings under names that are texts. -/
def ofGiven (given : List (Text × Json)) : List (Json × Json) :=
  given.map fun setting => (.text setting.1, setting.2)

/-- Settings whose names are texts. -/
theorem exists_ofGiven {settings : List (Json × Json)}
    (texts : ∀ setting ∈ settings, ∃ name, setting.1 = .text name) :
    ∃ given, settings = ofGiven given := by
  induction settings with
  | nil => exact ⟨[], rfl⟩
  | cons first others inductionHypothesis =>
      obtain ⟨⟨name, isName⟩, othersTexts⟩ := List.forall_mem_cons.mp texts
      obtain ⟨given, rfl⟩ := inductionHypothesis othersTexts
      exact ⟨(name, first.2) :: given, by rw [ofGiven, ofGiven, List.map_cons, ← isName]⟩

/-- A value agrees with a text exactly if it is that text. -/
theorem agrees_text_iff {value : Json} {text : Text} :
    value.agrees (.text text) = true ↔ value = .text text := by
  cases value <;> simp [Json.agrees, Json.quantity?]

/-- Texts have digests. -/
theorem digestOf_text (content : Text) : ∃ digest, digestOf (.text content) = .ok digest := by
  cases content <;> exact ⟨_, rfl⟩

/-- Texts are without repetition where they are without it as values. -/
theorem distinct_texts (names : List Text) : ∃ once : List Text,
    distinct (names.map .text) = once.map .text ∧ ∀ name, name ∈ once ↔ name ∈ names := by
  have general : ∀ known : List Text, ∃ once : List Text,
      (names.map Json.text).foldl (fun known name =>
        if known.any name.agrees then known else known ++ [name]) (known.map .text) =
          once.map .text ∧ ∀ name, name ∈ once ↔ name ∈ known ∨ name ∈ names := by
    induction names with
    | nil => exact fun known => ⟨known, rfl, by simp⟩
    | cons head tail inductionHypothesis =>
        intro known
        have isKnown : (known.map Json.text).any (Json.text head).agrees = true ↔
            head ∈ known := by
          simp [agrees_text_iff]
        rw [List.map_cons, List.foldl_cons]
        by_cases mem : head ∈ known
        · obtain ⟨once, isOnce, members⟩ := inductionHypothesis known
          refine ⟨once, by rw [if_pos (isKnown.mpr mem), isOnce], fun name => ?_⟩
          rw [members, List.mem_cons]
          constructor
          · rintro (before | later)
            · exact .inl before
            · exact .inr (.inr later)
          · rintro (before | rfl | later)
            · exact .inl before
            · exact .inl mem
            · exact .inr later
        · obtain ⟨once, isOnce, members⟩ := inductionHypothesis (known ++ [head])
          rw [List.map_append, List.map_singleton] at isOnce
          refine ⟨once, by rw [if_neg (mem ∘ isKnown.mp), isOnce], fun name => ?_⟩
          rw [members, List.mem_append, List.mem_singleton, List.mem_cons, or_assoc]
  obtain ⟨once, isOnce, members⟩ := general []
  exact ⟨once, isOnce, fun name => by simpa using members name⟩

/-- Names that are texts have a common order. -/
theorem checkComparable_texts (names : List Text) :
    checkComparable (names.map .text) = .ok () := by
  induction names with
  | nil => rfl
  | cons head tail inductionHypothesis =>
      cases tail with
      | nil => rfl
      | cons second others => exact inductionHypothesis

/-- Names that are texts are given as texts. -/
theorem mapM_texts (names : List Text) (start : Nat) : ((names.map Json.text).zipIdx start).mapM
    (fun (name, index) => match name with
      | .text content => (.ok content : Except OptionFault Text)
      | other => .error (.notText index other.kindName)) = .ok names := by
  induction names generalizing start with
  | nil => rfl
  | cons head tail inductionHypothesis =>
      rw [List.map_cons, List.zipIdx_cons, List.mapM_cons, inductionHypothesis]
      rfl

/-- Of names that are texts those that are not known are found, and nothing goes wrong. -/
theorem unknownNames_texts (known names : List Text) : ∃ unknown,
    unknownNames known (names.map .text) = .ok unknown ∧
      ∀ name, name ∈ unknown ↔ name ∈ names ∧ name ∉ known := by
  obtain ⟨once, isOnce, members⟩ := distinct_texts names
  have filtered : (distinct (names.map .text)).filter (fun name =>
      !known.any fun text => name.agrees (.text text)) =
        (once.filter fun name => !known.contains name).map .text := by
    rw [isOnce, List.filter_map]
    congr 2
    funext name
    have isUnknown : (!known.any fun text => (Json.text name).agrees (.text text)) = true ↔
        ∀ text ∈ known, name ≠ text := by
      simp [agrees_text_iff]
    rw [Function.comp_apply, Bool.eq_iff_iff, isUnknown, Bool.not_eq_true',
      ← Bool.not_eq_true, List.contains_iff_mem]
    exact ⟨fun each mem => each name mem rfl, fun notMem text mem same => notMem (same ▸ mem)⟩
  have sorted : ∀ texts : List Text, ∃ ordered : List Text,
      (texts.map Json.text).mergeSort nameAtMost = ordered.map .text ∧ ordered.Perm texts :=
    fun texts => ⟨texts.mergeSort Text.isAtMost,
      (List.map_mergeSort (f := Json.text) fun _ _ _ _ => rfl).symm, List.mergeSort_perm ..⟩
  obtain ⟨ordered, isOrdered, perm⟩ := sorted (once.filter fun name => !known.contains name)
  refine ⟨ordered, ?_, fun name => ?_⟩
  · unfold unknownNames
    simp only [filtered, isOrdered, checkComparable_texts]
    exact mapM_texts ordered 0
  · rw [perm.mem_iff, List.mem_filter, members]
    simp

/-- A setting is put in under its name. -/
theorem setSetting_ofGiven (name : Text) (value : Json) (given : List (Text × Json)) :
    setSetting (.text name) value (ofGiven given) =
      ofGiven (Named.insert Prod.fst (name, value) given) := by
  induction given with
  | nil => rfl
  | cons head tail inductionHypothesis =>
      rw [ofGiven, List.map_cons, setSetting, Named.insert, Json.agrees]
      by_cases same : head.1 = name
      · rw [if_pos (decide_eq_true same), if_pos same, same]
        rfl
      · rw [if_neg (by simpa using same), if_neg same]
        exact congrArg _ inductionHypothesis

/-- Settings that are given as an object have the names of its members. -/
theorem readSettings_object {given : List (Text × Json)} (unique : (given.map Prod.fst).Nodup) :
    readSettings (.object given) = .ok (ofGiven given) := by
  have general : ∀ known : List (Text × Json),
      given.foldl (fun known member => setSetting (.text member.1) member.2 known)
          (ofGiven known) =
        ofGiven (given.foldl (fun known member => Named.insert Prod.fst member known) known) := by
    induction given with
    | nil => exact fun _ => rfl
    | cons head tail inductionHypothesis =>
        intro known
        rw [List.foldl_cons, List.foldl_cons, setSetting_ofGiven,
          inductionHypothesis (List.nodup_cons.mp unique).2]
  exact congrArg Except.ok ((general []).trans (congrArg ofGiven (Named.ofList_of_nodup unique)))

/-- The value of a setting is what stands under its name. -/
theorem setting?_ofGiven (locales : Locales) (given : List (Text × Json)) (name : Text) :
    (⟨locales, ofGiven given⟩ : CompareOptions).setting? name =
      (Named.find? Prod.fst name given).map (·.2) := by
  have agrees : ((fun pair : Json × Json => pair.1.agrees (.text name)) ∘
      fun setting : Text × Json => (Json.text setting.1, setting.2)) =
        fun setting => decide (setting.1 = name) := by
    funext setting
    simp [Json.agrees]
  rw [setting?, ofGiven, List.find?_map, agrees, Option.map_map]
  rfl

end CompareOptions

namespace Collator

/-- A language tag as a whole: a language of two to eight letters, then any number of subtags of one
to eight letters or digits, with hyphens between them. -/
def IsLanguageTag (text : Text) : Prop :=
  ∃ language subtags, text = Text.join "-" (language :: subtags) ∧
    (2 ≤ language.length ∧ language.length ≤ 8 ∧ ∀ letter ∈ language, letter.isLetter = true) ∧
    ∀ subtag ∈ subtags, 1 ≤ subtag.length ∧ subtag.length ≤ 8 ∧
      ∀ codePoint ∈ subtag, codePoint.isLetter = true ∨ codePoint.isDigit = true

/-- What is accepted for a language tag: one, and also one with a line feed behind it. -/
def IsAcceptedTag (text : Text) : Prop :=
  IsLanguageTag text ∨ ∃ tag, IsLanguageTag tag ∧ text = tag ++ Text.ofString "\n"

/-- The code points of a language tag are hyphens, letters and digits. -/
theorem IsLanguageTag.mem_cases {text : Text} (isTag : IsLanguageTag text) {codePoint : CodePoint}
    (mem : codePoint ∈ text) :
    codePoint = ofChar '-' ∨ codePoint.isLetter = true ∨ codePoint.isDigit = true := by
  obtain ⟨language, subtags, rfl, ⟨-, -, letters⟩, eachSubtag⟩ := isTag
  rcases Text.mem_join mem with isHyphen | ⟨part, partMem, inPart⟩
  · exact .inl (List.mem_singleton.mp isHyphen)
  · rcases List.mem_cons.mp partMem with rfl | inSubtags
    · exact .inr (.inl (letters codePoint inPart))
    · exact .inr ((eachSubtag part inSubtags).2.2 codePoint inPart)

/-- Whether a text is a language tag is found out by cutting it at its hyphens. -/
theorem isLanguageTag_iff {text : Text} : isLanguageTag text = true ↔ IsLanguageTag text := by
  have noHyphen : ∀ {part : Text}, (∀ codePoint ∈ part, codePoint.isLetter = true ∨
      codePoint.isDigit = true) → ofChar '-' ∉ part := fun plain mem =>
    absurd (plain _ mem) (by decide)
  constructor
  · intro accepted
    unfold isLanguageTag at accepted
    split at accepted
    · cases accepted
    next language subtags isCut =>
    simp only [isSubtag, isAlphanumeric, Bool.and_eq_true, List.all_eq_true, decide_eq_true_eq,
      Bool.or_eq_true] at accepted
    obtain ⟨⟨⟨long, short⟩, letters⟩, eachSubtag⟩ := accepted
    refine ⟨language, subtags, ?_, ⟨long, short, letters⟩, fun subtag mem => ?_⟩
    · rw [← isCut]
      exact (Text.join_splitOn _ _).symm
    · obtain ⟨⟨long, short⟩, plain⟩ := eachSubtag subtag mem
      exact ⟨long, short, plain⟩
  · rintro ⟨language, subtags, rfl, ⟨long, short, letters⟩, eachSubtag⟩
    have isCut : (Text.join "-" (language :: subtags)).splitOn (ofChar '-') =
        language :: subtags := by
      refine Text.splitOn_join (List.forall_mem_cons.mpr ⟨?_, fun subtag mem => ?_⟩)
      · exact noHyphen fun codePoint mem => .inl (letters codePoint mem)
      · exact noHyphen (eachSubtag subtag mem).2.2
    simp only [isLanguageTag, isCut, isSubtag, isAlphanumeric, Bool.and_eq_true, List.all_eq_true,
      decide_eq_true_eq, Bool.or_eq_true]
    exact ⟨⟨⟨long, short⟩, letters⟩, fun subtag mem =>
      ⟨⟨(eachSubtag subtag mem).1, (eachSubtag subtag mem).2.1⟩, (eachSubtag subtag mem).2.2⟩⟩

/-- An entry of the locales is accepted if it is a text that is accepted for a language tag. -/
theorem acceptsLocale_iff {entry : Json} :
    acceptsLocale entry = true ↔ ∃ tag, entry = .text tag ∧ IsAcceptedTag tag := by
  have accepted : ∀ text : Text,
      isLanguageTag (dropLineEnd text) = true ↔ IsAcceptedTag text := by
    intro text
    rw [isLanguageTag_iff, dropLineEnd, IsAcceptedTag]
    split
    · next ended =>
        obtain ⟨tag, rfl⟩ := List.isSuffixOf_iff_suffix.mp ended
        have noTag : ¬ IsLanguageTag (tag ++ Text.ofString "\n") := fun isTag =>
          absurd (isTag.mem_cases (List.mem_append_right tag (List.mem_singleton_self _)))
            (by decide)
        have dropped : (tag ++ Text.ofString "\n").dropLast = tag :=
          List.dropLast_concat
        rw [dropped, or_iff_right noTag]
        constructor
        · exact fun isTag => ⟨tag, isTag, rfl⟩
        · rintro ⟨other, isTag, same⟩
          rwa [List.append_cancel_right same]
    · next notEnded =>
        refine (or_iff_left ?_).symm
        rintro ⟨tag, -, rfl⟩
        exact notEnded (List.isSuffixOf_iff_suffix.mpr ⟨tag, rfl⟩)
  cases entry with
  | text tag => simp [acceptsLocale, accepted]
  | _ => simp [acceptsLocale]

/-- A value counts for a setting: it is given, or nothing is and it stands in for what is not. -/
def Counts (given : List (Text × Json)) (name : Text) (otherwise value : Json) : Prop :=
  (name, value) ∈ given ∨ value = otherwise ∧ ∀ other, (name, other) ∉ given

/-- What is accepted: the settings are known ones with the values they may have, and the locales are
language tags. -/
structure Accepts (given : List (Text × Json)) (locales : List Json) : Prop where
  known : ∀ setting ∈ given, setting.1 ∈ knownSettings
  sensitivity : ∀ value, (Text.ofString "sensitivity", value) ∈ given →
    ∃ word ∈ sensitivities, value = .text word
  numeric : ∀ value, (Text.ofString "numeric", value) ∈ given → ∃ flag, value = .boolean flag
  caseFirst : ∀ value, (Text.ofString "caseFirst", value) ∈ given →
    ∃ word ∈ caseFirstChoices, value = .text word
  ignorePunctuation : ∀ value, (Text.ofString "ignorePunctuation", value) ∈ given →
    ∃ flag, value = .boolean flag
  tags : ∀ entry ∈ locales, ∃ tag, entry = .text tag ∧ IsAcceptedTag tag

/-- The collator that settings and locales describe. Its locale is the first one. -/
structure Describes (given : List (Text × Json)) (locales : List Json)
    (settings : CollatorSettings) : Prop where
  locale : settings.locale.map Json.text = locales.head?
  sensitivity : Counts given "sensitivity" (.text "variant") (.text settings.sensitivity) ∧
    settings.sensitivity ∈ sensitivities
  levels : (settings.strength, settings.caseLevel) = levelsOf settings.sensitivity
  numeric : Counts given "numeric" (.boolean false) (.boolean settings.numeric)
  caseFirst : ∃ choice, (Counts given "caseFirst" (.text "false") (.text choice) ∧
    choice ∈ caseFirstChoices) ∧ settings.caseFirst = caseFirstOf choice
  ignorePunctuation :
    Counts given "ignorePunctuation" (.boolean false) (.boolean settings.ignorePunctuation)

/-- A setting that is accepted only as something of a kind counts as something of that kind. -/
theorem exists_counts {given : List (Text × Json)} {name : Text} {holds : Json → Prop}
    (otherwise : Json) (standsIn : holds otherwise)
    (each : ∀ value, (name, value) ∈ given → holds value) :
    ∃ value, Counts given name otherwise value ∧ holds value := by
  by_cases isGiven : ∃ value, (name, value) ∈ given
  · obtain ⟨value, mem⟩ := isGiven
    exact ⟨value, .inl mem, each value mem⟩
  · exact ⟨otherwise, .inr ⟨rfl, not_exists.mp isGiven⟩, standsIn⟩

/-- What is accepted describes a collator. -/
theorem Accepts.exists_describes {given : List (Text × Json)} {locales : List Json}
    (accepts : Accepts given locales) : ∃ settings, Describes given locales settings := by
  obtain ⟨_, sensitivity, word, isWord, rfl⟩ :=
    exists_counts (.text "variant") ⟨_, by decide, rfl⟩ accepts.sensitivity
  obtain ⟨_, numeric, digits, rfl⟩ :=
    exists_counts (.boolean false) ⟨_, rfl⟩ accepts.numeric
  obtain ⟨_, caseFirst, choice, isChoice, rfl⟩ :=
    exists_counts (.text "false") ⟨_, by decide, rfl⟩ accepts.caseFirst
  obtain ⟨_, ignorePunctuation, skips, rfl⟩ :=
    exists_counts (.boolean false) ⟨_, rfl⟩ accepts.ignorePunctuation
  have first : ∃ locale : Option Text, locale.map Json.text = locales.head? := by
    cases locales with
    | nil => exact ⟨none, rfl⟩
    | cons head tail =>
        obtain ⟨tag, isText, -⟩ := accepts.tags head (by simp)
        exact ⟨some tag, congrArg some isText.symm⟩
  obtain ⟨locale, isFirst⟩ := first
  exact ⟨⟨locale, word, (levelsOf word).1, (levelsOf word).2, digits, caseFirstOf choice, skips⟩,
    isFirst, ⟨sensitivity, isWord⟩, rfl, numeric, ⟨choice, ⟨caseFirst, isChoice⟩, rfl⟩,
    ignorePunctuation⟩

section Settings

variable {given : List (Text × Json)} {locales : Locales}

/-- What counts for a setting is what is found under its name, or what stands in for it. -/
theorem counts_iff (locales : Locales) (unique : (given.map Prod.fst).Nodup) {name : Text}
    {otherwise value : Json} :
    Counts given name otherwise value ↔ (CompareOptions.setting?
      ⟨locales, CompareOptions.ofGiven given⟩ name).getD otherwise = value := by
  rw [CompareOptions.setting?_ofGiven]
  cases found : Named.find? Prod.fst name given with
  | none =>
      have notGiven : ∀ other, (name, other) ∉ given := by
        intro other mem
        have isSome := Named.isSome_find?_iff.mpr (List.mem_map_of_mem (f := Prod.fst) mem)
        rw [found] at isSome
        cases isSome
      constructor
      · rintro (mem | ⟨rfl, -⟩)
        · exact absurd mem (notGiven value)
        · rfl
      · rintro rfl
        exact .inr ⟨rfl, notGiven⟩
  | some setting =>
      obtain ⟨mem, rfl⟩ := Named.of_find?_eq_some found
      constructor
      · rintro (other | ⟨-, notGiven⟩)
        · rw [(Named.find?_eq_some_iff unique).mpr ⟨other, rfl⟩] at found
          rw [← Option.some.inj found]
          rfl
        · exact absurd mem (notGiven setting.2)
      · rintro rfl
        exact .inl mem

/-- Where a setting is given, what is given counts. -/
theorem Counts.eq_of_mem (unique : (given.map Prod.fst).Nodup) {name : Text}
    {otherwise value other : Json} (counts : Counts given name otherwise value)
    (mem : (name, other) ∈ given) : other = value :=
  ((counts_iff .unset unique).mp (.inl mem)).symm.trans ((counts_iff .unset unique).mp counts)

/-- One value counts for a setting, in whatever order the settings are. -/
theorem Counts.eq_of_perm (unique : (given.map Prod.fst).Nodup) {given' : List (Text × Json)}
    (perm : given'.Perm given) {name : Text} {otherwise value value' : Json}
    (counts : Counts given name otherwise value) (counts' : Counts given' name otherwise value') :
    value' = value := by
  have sameCounts : Counts given name otherwise value' := by
    simpa only [Counts, perm.mem_iff] using counts'
  exact ((counts_iff .unset unique).mp sameCounts).symm.trans ((counts_iff .unset unique).mp counts)

/-- The same settings in another order, with the same first locale, describe the same collator. -/
theorem Describes.eq_of_perm (unique : (given.map Prod.fst).Nodup) {given' : List (Text × Json)}
    (perm : given'.Perm given) {locales locales' : List Json}
    (sameFirst : locales'.head? = locales.head?) {settings settings' : CollatorSettings}
    (describes : Describes given locales settings)
    (describes' : Describes given' locales' settings') : settings' = settings := by
  obtain ⟨choice, ⟨isChoice, -⟩, caseFirst⟩ := describes.caseFirst
  obtain ⟨choice', ⟨isChoice', -⟩, caseFirst'⟩ := describes'.caseFirst
  have sameLocale : settings'.locale = settings.locale :=
    Option.map_injective (fun _ _ => Json.text.inj)
      (describes'.locale.trans (sameFirst.trans describes.locale.symm))
  have sameWord := Json.text.inj
    (describes.sensitivity.1.eq_of_perm unique perm describes'.sensitivity.1)
  have sameNumeric := Json.boolean.inj (describes.numeric.eq_of_perm unique perm describes'.numeric)
  have sameChoice := Json.text.inj (isChoice.eq_of_perm unique perm isChoice')
  have samePunctuation := Json.boolean.inj
    (describes.ignorePunctuation.eq_of_perm unique perm describes'.ignorePunctuation)
  have sameLevels := describes'.levels.trans
    ((congrArg levelsOf sameWord).trans describes.levels.symm)
  rw [← sameChoice, ← caseFirst'] at caseFirst
  cases settings
  cases settings'
  simp only [Prod.mk.injEq] at sameLevels
  simp only [CollatorSettings.mk.injEq]
  exact ⟨sameLocale, sameWord, sameLevels.1, sameLevels.2, sameNumeric, caseFirst.symm,
    samePunctuation⟩

/-- The locale is the first of locales that are all tags. -/
theorem firstTag_eq {entries : List Json}
    (tags : ∀ entry ∈ entries, ∃ tag, entry = .text tag ∧ IsAcceptedTag tag) :
    (match entries.head? with
      | some (.text tag) => some tag
      | _ => none : Option Text).map Json.text = entries.head? := by
  cases entries with
  | nil => rfl
  | cons head tail =>
      obtain ⟨tag, rfl, -⟩ := tags head (by simp)
      rfl

/-- A flag is read where what counts for the setting is one. -/
theorem readFlag_eq_ok_iff (unique : (given.map Prod.fst).Nodup) {name : Text} {flag : Bool} :
    readFlag ⟨locales, CompareOptions.ofGiven given⟩ name = .ok flag ↔
      Counts given name (.boolean false) (.boolean flag) := by
  rw [counts_iff locales unique, readFlag]
  cases CompareOptions.setting? ⟨locales, CompareOptions.ofGiven given⟩ name with
  | none => simp
  | some value => cases value <;> simp

/-- A word is read where what counts for the setting is one of the words it may be. -/
theorem readChoice_eq_ok_iff (unique : (given.map Prod.fst).Nodup) {name otherwise word : Text}
    {choices : List Text} (among : otherwise ∈ choices) :
    readChoice ⟨locales, CompareOptions.ofGiven given⟩ name choices otherwise = .ok word ↔
      Counts given name (.text otherwise) (.text word) ∧ word ∈ choices := by
  rw [counts_iff locales unique, readChoice]
  cases CompareOptions.setting? ⟨locales, CompareOptions.ofGiven given⟩ name with
  | none =>
      rw [Option.getD_none, Except.ok.injEq, Json.text.injEq, iff_self_and]
      rintro rfl
      exact among
  | some value =>
      rw [Option.getD_some]
      dsimp only
      cases found : choices.find? fun choice => value.agrees (.text choice) with
      | none =>
          refine ⟨nofun, ?_⟩
          rintro ⟨rfl, mem⟩
          exact absurd (CompareOptions.agrees_text_iff.mpr rfl)
            (List.find?_eq_none.mp found word mem)
      | some choice =>
          have isChoice := CompareOptions.agrees_text_iff.mp
            (List.find?_some (p := fun choice => value.agrees (.text choice)) found)
          rw [isChoice, Except.ok.injEq, Json.text.injEq, iff_self_and]
          rintro rfl
          exact List.mem_of_find?_eq_some found

/-- Locales are given back if all of them are accepted. -/
theorem checkLocales_eq_ok_iff {options : CompareOptions} {entries : List Json} :
    checkLocales options = .ok entries ↔ (∀ entry ∈ options.locales.toList, ∃ tag,
      entry = .text tag ∧ IsAcceptedTag tag) ∧ options.locales.toList = entries := by
  simp only [← acceptsLocale_iff]
  unfold checkLocales
  dsimp only
  cases found : options.locales.toList.find? fun entry => !acceptsLocale entry with
  | none =>
      have each : ∀ entry ∈ options.locales.toList, acceptsLocale entry = true := by
        simpa using found
      rw [Except.ok.injEq, iff_and_self]
      exact fun _ => each
  | some entry =>
      refine ⟨nofun, fun accepted => ?_⟩
      have refused := List.find?_some found
      rw [accepted.1 entry (List.mem_of_find?_eq_some found)] at refused
      cases refused

/-- Settings and locales that are accepted give the collator they describe. -/
theorem ofOptions_eq_ok_iff (unique : (given.map Prod.fst).Nodup) {settings : CollatorSettings} :
    ofOptions ⟨locales, CompareOptions.ofGiven given⟩ = .ok settings ↔
      Accepts given locales.toList ∧ Describes given locales.toList settings := by
  obtain ⟨unknown, found, members⟩ :=
    CompareOptions.unknownNames_texts knownSettings (given.map Prod.fst)
  have names : (CompareOptions.ofGiven given).map (·.1) = (given.map Prod.fst).map .text := by
    simp [CompareOptions.ofGiven]
  have noneUnknown : unknown = [] ↔ ∀ setting ∈ given, setting.1 ∈ knownSettings := by
    simp only [List.eq_nil_iff_forall_not_mem, members, not_and, not_not, List.forall_mem_map]
  have sensitivityRead : ∀ word, readChoice ⟨locales, CompareOptions.ofGiven given⟩ "sensitivity"
      sensitivities "variant" = .ok word ↔ _ :=
    fun _ => readChoice_eq_ok_iff unique (by decide)
  have caseFirstRead : ∀ choice, readChoice ⟨locales, CompareOptions.ofGiven given⟩ "caseFirst"
      caseFirstChoices "false" = .ok choice ↔ _ :=
    fun _ => readChoice_eq_ok_iff unique (by decide)
  have flagRead : ∀ name flag, readFlag ⟨locales, CompareOptions.ofGiven given⟩ name =
      .ok flag ↔ _ :=
    fun _ _ => readFlag_eq_ok_iff unique
  unfold ofOptions
  rw [names, found, bind_eq_ok_iff]
  constructor
  · rintro ⟨_, ⟨⟩, decided⟩
    split at decided
    · cases decided
    next isEmpty =>
    simp only [bind_eq_ok_iff, pure_eq_ok_iff] at decided
    obtain ⟨entries, checked, word, sensitivity, digits, numeric, choice, caseFirst, skips,
      ignorePunctuation, rfl⟩ := decided
    obtain ⟨tags, rfl⟩ := checkLocales_eq_ok_iff.mp checked
    rw [sensitivityRead] at sensitivity
    rw [caseFirstRead] at caseFirst
    rw [flagRead] at numeric ignorePunctuation
    exact ⟨⟨noneUnknown.mp (by simpa using isEmpty),
        fun value mem => ⟨word, sensitivity.2, sensitivity.1.eq_of_mem unique mem⟩,
        fun value mem => ⟨digits, numeric.eq_of_mem unique mem⟩,
        fun value mem => ⟨choice, caseFirst.2, caseFirst.1.eq_of_mem unique mem⟩,
        fun value mem => ⟨skips, ignorePunctuation.eq_of_mem unique mem⟩, tags⟩,
      ⟨firstTag_eq tags, sensitivity, rfl, numeric, ⟨choice, caseFirst, rfl⟩, ignorePunctuation⟩⟩
  · rintro ⟨accepts, describes⟩
    obtain ⟨choice, caseFirst, isCaseFirst⟩ := describes.caseFirst
    have isEmpty : ¬ (!unknown.isEmpty) = true := by simp [noneUnknown.mpr accepts.known]
    refine ⟨unknown, rfl, ?_⟩
    rw [if_neg isEmpty]
    simp only [bind_eq_ok_iff, pure_eq_ok_iff]
    refine ⟨_, checkLocales_eq_ok_iff.mpr ⟨accepts.tags, rfl⟩, _,
      (sensitivityRead _).mpr describes.sensitivity, _, (flagRead _ _).mpr describes.numeric, _,
      (caseFirstRead _).mpr caseFirst, _, (flagRead _ _).mpr describes.ignorePunctuation, ?_⟩
    have sameLocale := Option.map_injective (fun _ _ => Json.text.inj)
      ((firstTag_eq accepts.tags).trans describes.locale.symm)
    rw [← describes.levels, ← isCaseFirst]
    exact congrArg (fun locale => { settings with locale := locale }) sameLocale

/-- Options whose settings have texts for names are refused as options of comparison, if they are
refused. -/
theorem ofOptions_failsWithin :
    FailsWithin (fun fault => fault.kind = .collation)
      (ofOptions ⟨locales, CompareOptions.ofGiven given⟩) := by
  have locale (options : CompareOptions) :
      FailsWithin (fun fault => fault.kind = .collation) (checkLocales options) := by
    unfold checkLocales
    dsimp only
    split
    · exact .error rfl
    · exact .ok _
  have flag (options : CompareOptions) (name : Text) :
      FailsWithin (fun fault => fault.kind = .collation) (readFlag options name) := by
    unfold readFlag
    split
    · exact .ok _
    · exact .ok _
    · exact .error rfl
  have choice (options : CompareOptions) (name : Text) (choices : List Text) (otherwise : Text) :
      FailsWithin (fun fault => fault.kind = .collation)
        (readChoice options name choices otherwise) := by
    unfold readChoice
    split
    · exact .ok _
    · split
      · exact .ok _
      · exact .error rfl
  obtain ⟨unknown, found, -⟩ :=
    CompareOptions.unknownNames_texts knownSettings (given.map Prod.fst)
  have names : (CompareOptions.ofGiven given).map (·.1) = (given.map Prod.fst).map .text := by
    simp [CompareOptions.ofGiven]
  unfold ofOptions
  rw [names, found]
  refine FailsWithin.bind (.ok _) fun unknown => ?_
  split
  · exact .error rfl
  · exact (locale _).bind fun _ => (choice _ _ _ _).bind fun _ => (flag _ _).bind fun _ =>
      (choice _ _ _ _).bind fun _ => (flag _ _).bind fun _ => .ok _

end Settings

end Collator

namespace CompareOptions

/-- What may be asked for as locales, and the locales it asks for. -/
inductive ListsLocales : Option Json → List Json → Prop where
  | absent : ListsLocales none []
  | null : ListsLocales (some .null) []
  | single (tag : Text) : ListsLocales (some (.text tag)) [.text tag]
  | listed (entries : List Json) : ListsLocales (some (.array entries)) entries

/-- What may be asked for as settings, and the settings it asks for. -/
inductive ListsSettings : Option Json → List (Text × Json) → Prop where
  | absent : ListsSettings none []
  | null : ListsSettings (some .null) []
  | object {given : List (Text × Json)} (unique : (given.map Prod.fst).Nodup) :
      ListsSettings (some (.object given)) given

/-- Locales that are asked for are read. -/
theorem ListsLocales.readLocales_eq {asked : Option Json} {locales : List Json}
    (lists : ListsLocales asked locales) :
    ∃ read : Locales, read.toList = locales ∧ readLocales (asked.getD .null) = .ok read := by
  cases lists with
  | absent | null => exact ⟨.unset, rfl, rfl⟩
  | single tag => exact ⟨.single tag, rfl, rfl⟩
  | listed => exact ⟨.listed locales, rfl, rfl⟩

/-- The names of settings that are asked for are different. -/
theorem ListsSettings.unique {asked : Option Json} {given : List (Text × Json)}
    (lists : ListsSettings asked given) : (given.map Prod.fst).Nodup := by
  cases lists with
  | absent | null => exact .nil
  | object unique => exact unique

/-- Settings that are asked for are read. -/
theorem ListsSettings.readSettings_eq {asked : Option Json} {given : List (Text × Json)}
    (lists : ListsSettings asked given) :
    readSettings (asked.getD .null) = .ok (ofGiven given) := by
  cases lists with
  | absent | null => rfl
  | object unique => exact readSettings_object unique

/-- A value asks for locales and settings: it is an object with no other members. -/
structure Asks (value : Json) (locales : List Json) (given : List (Text × Json)) : Prop where
  members : ∃ members, value = .object members ∧ ∀ member ∈ members, member.1 ∈ knownMembers
  locales : ListsLocales (value.get? "locales") locales
  settings : ListsSettings (value.get? "options") given

/-- Of an object with no members but the known ones, settings and locales are read. -/
theorem ofJson_object {members : List (Text × Json)}
    (known : ∀ member ∈ members, member.1 ∈ knownMembers) :
    ofJson (.object members) = (do
      let settings ← readSettings (((Json.object members).get? "options").getD .null)
      let locales ← readLocales (((Json.object members).get? "locales").getD .null)
      pure (some ⟨locales, settings⟩)) := by
  obtain ⟨unknown, found, unknownMembers⟩ := unknownNames_texts knownMembers (members.map Prod.fst)
  have noneUnknown : unknown = [] := by
    simp only [List.eq_nil_iff_forall_not_mem, unknownMembers, not_and, not_not,
      List.forall_mem_map]
    exact known
  have named : elements (.object members) = .ok ((members.map Prod.fst).map .text) := by
    rw [List.map_map]
    rfl
  have hashable : ∀ names : List Text, ((names.map Json.text).forM fun name => do
      let _ ← digestOf name) = .ok () := by
    intro names
    induction names with
    | nil => rfl
    | cons head tail inductionHypothesis =>
        obtain ⟨digest, isDigest⟩ := digestOf_text head
        exact bind_eq_ok_iff.mpr
          ⟨(), bind_eq_ok_iff.mpr ⟨digest, isDigest, rfl⟩, inductionHypothesis⟩
  have goesOn {α β : Type} (result : α) (next : α → Except OptionFault β) :
      (Except.ok result >>= next) = next result := rfl
  simp only [ofJson, named, goesOn, hashable, found, noneUnknown]
  rfl

/-- What a value asks for is read from it. -/
theorem ofJson_of_asks {value : Json} {locales : List Json} {given : List (Text × Json)}
    (asks : Asks value locales given) : ∃ read : Locales, read.toList = locales ∧
      ofJson value = .ok (some ⟨read, ofGiven given⟩) := by
  obtain ⟨members, rfl, known⟩ := asks.members
  obtain ⟨read, isRead, localesRead⟩ := asks.locales.readLocales_eq
  refine ⟨read, isRead, ?_⟩
  rw [ofJson_object known, asks.settings.readSettings_eq, localesRead]
  rfl

end CompareOptions

namespace NameOrder

open Collator

/-- A value gives an order of names if what it asks for is accepted, and it is the order of the
collator that is described. -/
theorem ofJson_eq_ok_iff (collation : Collation) {value : Json} {locales : List Json}
    {given : List (Text × Json)} (asks : CompareOptions.Asks value locales given)
    {order : NameOrder} : ofJson collation value = .ok order ↔ Accepts given locales ∧
      ∃ settings, Describes given locales settings ∧ order = .collated (collation settings) := by
  obtain ⟨read, rfl, isRead⟩ := CompareOptions.ofJson_of_asks asks
  rw [ofJson, isRead]
  refine map_eq_ok_iff.trans ?_
  simp only [Collator.ofOptions_eq_ok_iff asks.settings.unique]
  constructor
  · rintro ⟨settings, ⟨accepts, describes⟩, rfl⟩
    exact ⟨accepts, settings, describes, rfl⟩
  · rintro ⟨accepts, settings, describes, rfl⟩
    exact ⟨settings, ⟨accepts, describes⟩, rfl⟩

/-- What is accepted gives an order of names. -/
theorem exists_ofJson_of_accepts (collation : Collation) {value : Json} {locales : List Json}
    {given : List (Text × Json)} (asks : CompareOptions.Asks value locales given)
    (accepts : Accepts given locales) : ∃ order, ofJson collation value = .ok order := by
  obtain ⟨settings, describes⟩ := accepts.exists_describes
  exact ⟨_, (ofJson_eq_ok_iff collation asks).mpr ⟨accepts, settings, describes, rfl⟩⟩

/-- A value gives an order of names exactly if what it asks for is accepted; otherwise it is refused
as options of comparison. The order is that of the collator that is described, and neither the order
of the settings nor any locale but the first one changes it. -/
theorem ofJson_accepts (collation : Collation) {value : Json} {locales : List Json}
    {given : List (Text × Json)} (asks : CompareOptions.Asks value locales given) :
    ((∃ order, ofJson collation value = .ok order) ↔ Accepts given locales) ∧
      FailsWithin (fun fault => fault.kind = .collation) (ofJson collation value) ∧
      (∀ order, ofJson collation value = .ok order → ∃ settings,
        Describes given locales settings ∧ order = .collated (collation settings)) ∧
      ∀ value' locales' given' order order', CompareOptions.Asks value' locales' given' →
        given'.Perm given → locales'.head? = locales.head? → ofJson collation value = .ok order →
        ofJson collation value' = .ok order' → order' = order := by
  refine ⟨⟨?_, exists_ofJson_of_accepts collation asks⟩, ?_, fun order isOrder =>
    ((ofJson_eq_ok_iff collation asks).mp isOrder).2, ?_⟩
  · rintro ⟨order, isOrder⟩
    exact ((ofJson_eq_ok_iff collation asks).mp isOrder).1
  · obtain ⟨read, rfl, isRead⟩ := CompareOptions.ofJson_of_asks asks
    rw [ofJson, isRead]
    exact Collator.ofOptions_failsWithin.map _
  · intro value' locales' given' order order' asks' perm sameFirst isOrder isOrder'
    obtain ⟨-, settings, describes, rfl⟩ := (ofJson_eq_ok_iff collation asks).mp isOrder
    obtain ⟨-, settings', describes', rfl⟩ := (ofJson_eq_ok_iff collation asks').mp isOrder'
    rw [describes.eq_of_perm asks.settings.unique perm sameFirst describes']

/-- Options with two locales and two settings. -/
def czechOptions : Json :=
  .object [("locales", .array [.text "cs-CZ", .text "en"]),
    ("options", .object [("numeric", .boolean true), ("sensitivity", .text "base")])]

/-- The same settings in the other order, with another second locale. -/
def rearrangedOptions : Json :=
  .object [("options", .object [("sensitivity", .text "base"), ("numeric", .boolean true)]),
    ("locales", .array [.text "cs-CZ", .text "de"])]

/-- Options that are accepted give an order, and the rearranged ones give the same. -/
theorem ofJson_accepts_czechOptions : ∃ order,
    ofJson AsciiCollation.key czechOptions = .ok order ∧
      ofJson AsciiCollation.key rearrangedOptions = .ok order := by
  have asks : CompareOptions.Asks czechOptions [.text "cs-CZ", .text "en"]
      [("numeric", .boolean true), ("sensitivity", .text "base")] :=
    ⟨⟨_, rfl, by decide⟩, .listed _, .object (by decide)⟩
  have asksRearranged : CompareOptions.Asks rearrangedOptions [.text "cs-CZ", .text "de"]
      [("sensitivity", .text "base"), ("numeric", .boolean true)] :=
    ⟨⟨_, rfl, by decide⟩, .listed _, .object (by decide)⟩
  have isTag : ∀ tag ∈ ["cs-CZ", "en", "de"].map Text.ofString, IsAcceptedTag tag :=
    fun tag mem => .inl (isLanguageTag_iff.mp ((by decide : ∀ tag ∈
      ["cs-CZ", "en", "de"].map Text.ofString, isLanguageTag tag = true) tag mem))
  have accepts : ∀ {given : List (Text × Json)} {second : Text},
      given.Perm [("numeric", .boolean true), ("sensitivity", .text "base")] →
      IsAcceptedTag second → Accepts given [.text "cs-CZ", .text second] := by
    intro given second perm secondTag
    have isGiven : ∀ {name value}, (name, value) ∈ given →
        name = "numeric" ∧ value = .boolean true ∨ name = "sensitivity" ∧ value = .text "base" := by
      intro name value mem
      simpa using perm.mem_iff.mp mem
    refine ⟨?known, ?sensitivity, ?numeric, ?caseFirst, ?ignorePunctuation, ?tags⟩
    case known =>
      intro setting mem
      rcases isGiven mem with ⟨same, -⟩ | ⟨same, -⟩
      · exact same ▸ by decide
      · exact same ▸ by decide
    case sensitivity =>
      intro value mem
      rcases isGiven mem with ⟨other, -⟩ | ⟨-, rfl⟩
      · exact absurd other (by decide)
      · exact ⟨_, by decide, rfl⟩
    case numeric =>
      intro value mem
      rcases isGiven mem with ⟨-, rfl⟩ | ⟨other, -⟩
      · exact ⟨_, rfl⟩
      · exact absurd other (by decide)
    case caseFirst =>
      intro value mem
      rcases isGiven mem with ⟨other, -⟩ | ⟨other, -⟩ <;> exact absurd other (by decide)
    case ignorePunctuation =>
      intro value mem
      rcases isGiven mem with ⟨other, -⟩ | ⟨other, -⟩ <;> exact absurd other (by decide)
    case tags =>
      simp only [List.forall_mem_cons]
      exact ⟨⟨_, rfl, isTag "cs-CZ" (by decide)⟩, ⟨_, rfl, secondTag⟩, nofun⟩
  obtain ⟨order, isOrder⟩ := (ofJson_accepts AsciiCollation.key asks).1.mpr
    (accepts (.refl _) (isTag "en" (by decide)))
  obtain ⟨order', isOrder'⟩ := (ofJson_accepts AsciiCollation.key asksRearranged).1.mpr
    (accepts (.swap ..) (isTag "de" (by decide)))
  have same := (ofJson_accepts AsciiCollation.key asks).2.2.2 _ _ _ order order' asksRearranged
    (.swap ..) rfl isOrder isOrder'
  exact ⟨order, isOrder, same ▸ isOrder'⟩

/-- Options with a locale that ends in a line feed. -/
def endedOptions : Json :=
  .object [("locales", .text "en\n")]

/-- A language tag with a line feed behind it is no language tag and is accepted. -/
theorem ofJson_accepts_endedOptions :
    CompareOptions.Asks endedOptions [.text "en\n"] [] ∧ ¬ IsLanguageTag "en\n" ∧
      ∃ order, ofJson AsciiCollation.key endedOptions = .ok order := by
  have asks : CompareOptions.Asks endedOptions [.text "en\n"] [] :=
    ⟨⟨_, rfl, by decide⟩, .single "en\n", .absent⟩
  have noTag : ¬ IsLanguageTag "en\n" := fun isTag =>
    absurd (isLanguageTag_iff.mpr isTag) (by decide)
  have accepted : IsAcceptedTag "en\n" :=
    .inr ⟨"en", isLanguageTag_iff.mp (by decide), by decide⟩
  have accepts : Accepts [] [.text "en\n"] :=
    ⟨nofun, nofun, nofun, nofun, nofun, List.forall_mem_singleton.mpr ⟨_, rfl, accepted⟩⟩
  exact ⟨asks, noTag, exists_ofJson_of_accepts AsciiCollation.key asks accepts⟩

end NameOrder
end SchemaOrder
