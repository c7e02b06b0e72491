import SchemaOrder.Command.Conversion
import SchemaOrder.Command.Arguments
import SchemaOrder.Proofs.Outcome

/-!
# Arguments that are read

Whatever is read from a command line was set by flags of the program, one after the other: what
holds of arguments without anything set, and what every flag keeps, holds of all arguments that are
read. So the format that is asked for is always one that there is.
-/

namespace SchemaOrder.Arguments

open Outcome

/-- A flag that is found by a name is one of the program. -/
theorem mem_flags_of_namedFlags {entry : Text × Flag} (mem : entry ∈ namedFlags) :
    entry.2 ∈ flags := by
  obtain ⟨flag, isFlag, named⟩ := List.mem_flatMap.mp mem
  obtain ⟨name, -, rfl⟩ := List.mem_map.mp named
  exact isFlag

/-- So is one that is looked up by its name. -/
theorem mem_flags_of_flag? {name : Text} {flag : Flag} (found : flag? name = some flag) :
    flag ∈ flags := by
  obtain ⟨entry, isEntry, rfl⟩ := Option.map_eq_some_iff.mp found
  exact mem_flags_of_namedFlags (List.mem_of_find?_eq_some isEntry)

/-- So are those that a text may be short for. -/
theorem mem_flags_of_candidates {text : Text} {candidate : Text × Flag × Tie}
    (mem : candidate ∈ candidates text) : candidate.2.1 ∈ flags := by
  unfold candidates at mem
  split at mem
  · obtain ⟨entry, isEntry, rfl⟩ := List.mem_map.mp mem
    exact mem_flags_of_namedFlags (List.mem_filter.mp isEntry).1
  · obtain ⟨entry, isEntry, rfl⟩ := List.mem_map.mp mem
    exact mem_flags_of_namedFlags (List.mem_filter.mp isEntry).1

/-- A word that names a flag of the program, if it names any. -/
def Word.IsKnown : Word → Prop
  | .named flag _ _ => flag ∈ flags
  | _ => True

/-- A word that may be short for a flag is short for one of the program, if for any. -/
theorem lookUpShort_isKnown {text : Text} {word : Word} (found : lookUpShort text = .ok word) :
    word.IsKnown := by
  unfold lookUpShort at found
  split at found
  · cases found
    split <;> exact trivial
  · next isSole =>
      cases found
      exact mem_flags_of_candidates (isSole ▸ List.mem_singleton_self _)
  · cases found

/-- A word that may be a flag is one of the program, if any. -/
theorem lookUp_isKnown {text : Text} {word : Word} (found : lookUp text = .ok word) :
    word.IsKnown := by
  unfold lookUp at found
  split at found
  · cases found
    exact trivial
  · split at found
    · next isFlag =>
        cases found
        exact mem_flags_of_flag? isFlag
    · split at found
      · cases found
        exact trivial
      · dsimp only at found
        split at found
        · next isFlag =>
            cases found
            exact mem_flags_of_flag? isFlag
        · exact lookUpShort_isKnown found

/-- All flags that arguments name are flags of the program. -/
theorem lookUpAll_areKnown {texts : List Text} {words : List Word}
    (found : lookUpAll texts = .ok words) : ∀ word ∈ words, word.IsKnown := by
  induction texts generalizing words with
  | nil =>
      cases found
      exact List.forall_mem_nil _
  | cons text rest inductionHypothesis =>
      unfold lookUpAll at found
      split at found
      · cases found
        exact List.forall_mem_cons.mpr ⟨trivial, List.forall_mem_map.mpr fun _ _ => trivial⟩
      · obtain ⟨word, isWord, given⟩ := bind_eq_ok_iff.mp found
        obtain ⟨others, areOthers, same⟩ := bind_eq_ok_iff.mp given
        cases same
        exact List.forall_mem_cons.mpr ⟨lookUp_isKnown isWord, inductionHypothesis areOthers⟩

/-- What one argument asks for: flags of the program, and words that stand behind it. -/
structure Chosen.Follows (rest : List Word) (chosen : Chosen) : Prop where
  known : ∀ entry ∈ chosen.flags, entry.1 ∈ Arguments.flags
  behind : chosen.left ⊆ rest

namespace Chosen.Follows

variable {flag : Flag} {rest : List Word} {chosen : Chosen}

/-- One flag on its own. -/
theorem single {value : Option Text} {unknown : List Text} {left : List Word}
    (isFlag : flag ∈ Arguments.flags) (behind : left ⊆ rest) :
    Follows rest ⟨[(flag, value)], unknown, left⟩ :=
  ⟨List.forall_mem_singleton.mpr isFlag, behind⟩

/-- A flag in front of others. -/
theorem after (isFlag : flag ∈ Arguments.flags) (follows : Follows rest chosen) :
    Follows rest (chosen.after flag) :=
  ⟨List.forall_mem_cons.mpr ⟨isFlag, follows.known⟩, follows.behind⟩

end Chosen.Follows

variable {flag : Flag} {rest : List Word} {chosen : Chosen}

/-- A flag takes at most one of the words behind it. -/
theorem chooseAlone_follows (isFlag : flag ∈ flags) (chose : chooseAlone flag rest = .ok chosen) :
    chosen.Follows rest := by
  unfold chooseAlone at chose
  split at chose
  · split at chose
    · cases chose
      exact .single isFlag (List.subset_cons_self _ _)
    · cases chose
  · cases chose
    exact .single isFlag (List.Subset.refl _)

/-- Letters that are run together are looked at one after the other. -/
theorem chooseTied_follows {name tail : Text} {isMarked : Bool} (isFlag : flag ∈ flags)
    (chose : chooseTied flag name isMarked tail rest = .ok chosen) : chosen.Follows rest := by
  fun_induction chooseTied flag name isMarked tail rest generalizing chosen with
  | case1 | case4 =>
      cases chose
      exact .single isFlag (List.Subset.refl _)
  | case2 | case3 => exact absurd chose nofun
  | case5 =>
      next isNext =>
      obtain ⟨last, choseLast, rfl⟩ := map_eq_ok_iff.mp chose
      exact (chooseAlone_follows (mem_flags_of_flag? isNext) choseLast).after isFlag
  | case6 =>
      next isNext atMark atLetter =>
      obtain ⟨further, choseFurther, rfl⟩ := map_eq_ok_iff.mp chose
      refine Chosen.Follows.after isFlag ?_
      split at choseFurther
      · exact atMark (mem_flags_of_flag? isNext) choseFurther
      · exact atLetter (mem_flags_of_flag? isNext) choseFurther

/-- However a value is tied to its flag, nothing is asked for but flags of the program. -/
theorem choose_follows {name : Text} {tie : Tie} (isFlag : flag ∈ flags)
    (chose : choose flag name tie rest = .ok chosen) : chosen.Follows rest := by
  cases tie with
  | nothing => exact chooseAlone_follows isFlag chose
  | joined | marked => exact chooseTied_follows isFlag chose

/-- What every flag of the program keeps, reading words keeps. -/
theorem readWords_keeps {holds : Arguments → Prop}
    (keeps : ∀ flag ∈ flags, ∀ known value next, holds known → set known flag value = .ok next →
      holds next) {fuel : Nat} {known : Arguments} {unrecognized : List Text} {words : List Word}
    {result : Arguments × List Text} (areKnown : ∀ word ∈ words, word.IsKnown)
    (initially : holds known) (given : readWords fuel known unrecognized words = .ok result) :
    holds result.1 := by
  induction fuel generalizing known unrecognized words with
  | zero => cases words <;> cases given <;> exact initially
  | succ fuel inductionHypothesis =>
      cases words with
      | nil =>
          cases given
          exact initially
      | cons word rest =>
          obtain ⟨isKnown, othersKnown⟩ := List.forall_mem_cons.mp areKnown
          cases word with
          | separator | plain | unknown =>
              rw [readWords] at given
              exact inductionHypothesis othersKnown initially given
          | named flag name tie =>
              obtain ⟨chosen, chose, afterChoice⟩ := bind_eq_ok_iff.mp given
              obtain ⟨next, walked, rest⟩ := bind_eq_ok_iff.mp afterChoice
              have follows := choose_follows isKnown chose
              refine inductionHypothesis (fun word mem => othersKnown word (follows.behind mem)) ?_
                rest
              exact foldlM_keeps holds (fun entry mem known next =>
                keeps entry.1 (follows.known entry mem) known entry.2 next) initially walked

/-- What holds of arguments without anything set and is kept by every flag of the program holds of
all arguments that are read. -/
theorem read_keeps (holds : Arguments → Prop) (initially : holds {})
    (keeps : ∀ flag ∈ flags, ∀ known value next, holds known → set known flag value = .ok next →
      holds next) {texts : List Text} {arguments : Arguments}
    (given : read texts = .ok arguments) : holds arguments := by
  obtain ⟨words, found, given⟩ := bind_eq_ok_iff.mp given
  obtain ⟨⟨result, unrecognized⟩, isResult, given⟩ := bind_eq_ok_iff.mp given
  have kept : holds result :=
    readWords_keeps keeps (lookUpAll_areKnown found) initially isResult
  dsimp only at given
  split at given <;> cases given
  exact kept

/-- A flag that sets the format of the output to one that there is, or not at all. -/
def Flag.KeepsFormat (flag : Flag) : Prop :=
  match flag.action with
  | .help => True
  | .switch set => ∀ known, (set known).outputFormat = known.outputFormat
  | .value choices set =>
    ∀ value known, choices.isEmpty ∨ value ∈ choices →
      (set value known).outputFormat = known.outputFormat ∨
        (set value known).outputFormat ∈ outputFormats.map Prod.fst

/-- All flags of the program are such flags. -/
theorem flags_keepFormat : ∀ flag ∈ flags, flag.KeepsFormat := by
  have choice : ∀ {choices : List Text} {set : Text → Arguments → Arguments} {names : List Text},
      (∀ value known, (set value known).outputFormat = known.outputFormat) →
        Flag.KeepsFormat ⟨names, .value choices set⟩ :=
    fun keeps value known _ => .inl (keeps value known)
  have format : Flag.KeepsFormat ⟨["--to"], .value ["sdl", "json"] fun value known =>
      { known with outputFormat := value }⟩ := by
    rintro value known (⟨⟨⟩⟩ | mem)
    exact .inr mem
  simp only [flags, List.forall_mem_cons]
  exact ⟨trivial, choice fun _ _ => rfl, choice fun _ _ => rfl, choice fun _ _ => rfl,
    choice fun _ _ => rfl, choice fun _ _ => rfl, format, fun _ => rfl, fun _ => rfl,
    choice fun _ _ => rfl, choice fun _ _ => rfl, fun _ => rfl, choice fun _ _ => rfl,
    fun _ => rfl, fun _ => rfl, fun _ => rfl, List.forall_mem_nil _⟩

/-- The format of the output that is asked for is one that there is. -/
theorem outputFormat_of_read {texts : List Text} {arguments : Arguments}
    (given : read texts = .ok arguments) :
    arguments.outputFormat ∈ outputFormats.map Prod.fst := by
  refine read_keeps (fun known => known.outputFormat ∈ outputFormats.map Prod.fst) (by decide) ?_
    given
  intro flag isFlag known value next isFormat isSet
  have keeps := flags_keepFormat flag isFlag
  unfold Flag.KeepsFormat at keeps
  unfold set at isSet
  split at isSet
  · cases isSet
  · next action =>
      rw [action] at keeps
      cases isSet
      rw [keeps]
      exact isFormat
  · cases isSet
    exact isFormat
  · next action =>
      rw [action] at keeps
      split at isSet
      · next chosen =>
          cases isSet
          rcases keeps _ known (by simpa using chosen) with same | isOther
          · rw [same]
            exact isFormat
          · exact isOther
      · cases isSet

end SchemaOrder.Arguments
