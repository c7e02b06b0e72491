import SchemaOrder.Command.Conversion
import SchemaOrder.Proofs.Outcome

/-!
# Tasks step by step

A task that gives a result is taken apart into its steps. Steps that only look at the files are told
apart from those that write some, and what they come to depends on the files alone, not on what was
printed or noted before. `convert_eq_ok_iff` says what a conversion that writes a file does.
-/

namespace SchemaOrder

/-- The order of names that options ask for. -/
def ComparisonOptions.order (collation : Collation) (options : ComparisonOptions) :
    Except OptionFault NameOrder := do
  NameOrder.ofOptions collation (← options.resolve)

namespace Task

variable {α β : Type} {desk after : Desk}

/-- A sequence of two tasks does the first one and, unless that fails, the second one. -/
theorem bind_apply (first : Task α) (next : α → Task β) (desk : Desk) :
    (first >>= next) desk = match first desk with
      | (.ok middle, between) => next middle between
      | (.error fault, between) => (.error fault, between) := by
  simp only [bind, ExceptT.bind, ExceptT.mk, StateT.bind]
  rcases first desk with ⟨fault | middle, between⟩ <;> rfl

/-- A sequence of two tasks gives what the second one gives after the first one. -/
theorem bind_eq_ok_iff {first : Task α} {next : α → Task β} {result : β} :
    (first >>= next) desk = (.ok result, after) ↔ ∃ middle between,
      first desk = (.ok middle, between) ∧ next middle between = (.ok result, after) := by
  rw [bind_apply]
  rcases first desk with ⟨fault | middle, between⟩
  · exact ⟨nofun, nofun⟩
  · refine ⟨fun given => ⟨middle, between, rfl, given⟩, ?_⟩
    rintro ⟨_, _, same, given⟩
    cases same
    exact given

/-- A result that is known already is given without touching the desk. -/
theorem ofExcept_eq_ok_iff {outcome : Except Fault α} {result : α} :
    ofExcept outcome desk = (.ok result, after) ↔ outcome = .ok result ∧ desk = after :=
  Prod.mk.injEq .. ▸ Iff.rfl

/-- The files are taken as they are. -/
theorem volume_eq_ok_iff {volume : Volume} :
    Task.volume desk = (.ok volume, after) ↔ volume = desk.volume ∧ after = desk := by
  change (Except.ok desk.volume, desk) = (Except.ok volume, after) ↔ _
  rw [Prod.mk.injEq, Except.ok.injEq, eq_comm, @eq_comm _ desk]

/-- The files are put in the place of the old ones. -/
theorem setVolume_eq_ok_iff {volume : Volume} {done : Unit} :
    setVolume volume desk = (.ok done, after) ↔ after = { desk with volume } := by
  change (Except.ok (), _) = (Except.ok (), after) ↔ _
  rw [Prod.mk.injEq, @eq_comm _ after]
  exact and_iff_right rfl

/-- A task that leaves the files as they are, and what comes out of it. -/
structure Looks (task : Task α) (desk : Desk) (outcome : Except Fault α) : Prop where
  outcome : (task desk).1 = outcome
  files : (task desk).2.volume = desk.volume

namespace Looks

/-- A result that is known already. -/
theorem ofExcept (outcome : Except Fault α) : Looks (Task.ofExcept outcome) desk outcome :=
  ⟨rfl, rfl⟩

/-- A result that is there. -/
theorem pure (result : α) : Looks (Pure.pure result) desk (.ok result) :=
  ⟨rfl, rfl⟩

/-- The files themselves. -/
theorem volume : Looks Task.volume desk (.ok desk.volume) :=
  ⟨rfl, rfl⟩

/-- A note in the log. -/
theorem note (level : LogLevel) (origin : LogOrigin) (message : Text) :
    Looks (Task.note level origin message) desk (.ok ()) :=
  ⟨rfl, rfl⟩

/-- Tasks that leave the files as they are do so one after the other. -/
theorem bind {first : Task α} {next : α → Task β} {outcome : Except Fault α}
    {rest : α → Except Fault β} (looks : Looks first desk outcome)
    (further : ∀ middle between, outcome = .ok middle → between.volume = desk.volume →
      Looks (next middle) between (rest middle)) :
    Looks (first >>= next) desk (outcome >>= rest) := by
  obtain ⟨isOutcome, sameVolume⟩ := looks
  subst isOutcome
  have unfolded := bind_apply first next desk
  rcases ran : first desk with ⟨fault | middle, between⟩
  · rw [ran] at sameVolume unfolded
    exact ⟨congrArg Prod.fst unfolded, (congrArg (·.2.volume) unfolded).trans sameVolume⟩
  · rw [ran] at sameVolume unfolded
    obtain ⟨isResult, stillSame⟩ := further middle between (congrArg Prod.fst ran) sameVolume
    exact ⟨(congrArg Prod.fst unfolded).trans isResult,
      (congrArg (·.2.volume) unfolded).trans (stillSame.trans sameVolume)⟩

/-- A task that is sure to succeed is done before another one. -/
theorem andThen {first : Task α} {next : α → Task β} {middle : α} {outcome : Except Fault β}
    (looks : Looks first desk (.ok middle))
    (further : ∀ between, between.volume = desk.volume → Looks (next middle) between outcome) :
    Looks (first >>= next) desk outcome := by
  refine (looks.bind fun other between same sameVolume => ?_ :
    Looks _ desk (.ok middle >>= fun _ => outcome))
  cases same
  exact further between sameVolume

/-- What a task that leaves the files as they are gives is what comes out of it. -/
theorem of_ok {task : Task α} {outcome : Except Fault α} {result : α}
    (looks : Looks task desk outcome) (ran : task desk = (.ok result, after)) :
    outcome = .ok result ∧ after.volume = desk.volume := by
  obtain ⟨rfl, sameVolume⟩ := looks
  rw [ran] at sameVolume ⊢
  exact ⟨rfl, sameVolume⟩

/-- A task that leaves the files as they are gives what comes out of it. -/
theorem exists_ok {task : Task α} {result : α} (looks : Looks task desk (.ok result)) :
    ∃ after, task desk = (.ok result, after) ∧ after.volume = desk.volume :=
  ⟨(task desk).2, Prod.ext looks.outcome rfl, looks.files⟩

end Looks

/-- A task that prints nothing. -/
def IsSilent (task : Task α) : Prop :=
  ∀ desk, (task desk).2.output = desk.output

namespace IsSilent

/-- An outcome prints nothing. -/
theorem ofExcept (outcome : Except Fault α) : IsSilent (Task.ofExcept outcome) :=
  fun _ => rfl

/-- A result prints nothing. -/
theorem pure (result : α) : IsSilent (Pure.pure result) :=
  fun _ => rfl

/-- Looking at the files prints nothing. -/
theorem volume : IsSilent Task.volume :=
  fun _ => rfl

/-- Changing the files prints nothing. -/
theorem setVolume (volume : Volume) : IsSilent (Task.setVolume volume) :=
  fun _ => rfl

/-- What is noted for the log is not printed. -/
theorem note (level : LogLevel) (origin : LogOrigin) (message : Text) :
    IsSilent (Task.note level origin message) :=
  fun _ => rfl

/-- Tasks that print nothing do so one after the other. -/
theorem bind {first : Task α} {next : α → Task β} (silent : IsSilent first)
    (further : ∀ middle, IsSilent (next middle)) : IsSilent (first >>= next) := by
  intro desk
  have unfolded := bind_apply first next desk
  have same := silent desk
  rcases ran : first desk with ⟨fault | middle, between⟩
  · rw [ran] at same unfolded
    exact (congrArg (·.2.output) unfolded).trans same
  · rw [ran] at same unfolded
    exact (congrArg (·.2.output) unfolded).trans ((further middle between).trans same)

end IsSilent

variable {collation : Collation}

/-- A file is loaded by reading it in the format that is named or that its path has. -/
theorem load_looks (path : Text) (format : Option Text) :
    Looks (load path format) desk ((Source.namedFormat path format).read desk.volume) := by
  refine .andThen (.note ..) fun between sameVolume => ?_
  rw [← sameVolume]
  exact .andThen .volume fun _ _ => .ofExcept _

/-- The order of names that is worked out is the one that the options ask for. -/
theorem nameOrder_looks (options : ComparisonOptions) :
    Looks (nameOrder collation options) desk
      ((options.order collation).mapError .options) := by
  have whole : (options.order collation).mapError Fault.options =
      options.resolve.mapError .options >>= fun options =>
        (NameOrder.ofOptions collation options).mapError .options := by
    unfold ComparisonOptions.order
    cases options.resolve <;> rfl
  rw [whole]
  refine .bind (.ofExcept _) fun options between _ _ => ?_
  cases options with
  | none => exact .andThen (.note ..) fun _ _ => .pure _
  | some options =>
      have settled : (NameOrder.ofOptions collation (some options)).mapError Fault.options =
          (Collator.ofOptions options).mapError .options >>= fun settings =>
            Pure.pure (.collated (collation settings)) := by
        simp only [NameOrder.ofOptions]
        cases Collator.ofOptions options <;> rfl
      rw [settled]
      exact .bind (.ofExcept _) fun settings _ _ _ => .andThen (.note ..) fun _ _ => .pure _

/-- A schema is sorted by the order that the options ask for. -/
theorem sort_looks (options : ComparisonOptions) (schema : Schema) :
    Looks (sort collation options schema) desk
      ((options.order collation).mapError .options >>= schema.sorted) := by
  refine (nameOrder_looks options).bind fun order between _ _ => ?_
  have whole : schema.sorted order = schema.sorted order >>= Pure.pure := (bind_pure _).symm
  rw [whole]
  exact .bind (whole ▸ .ofExcept _) fun sorted _ _ _ => .andThen (.note ..) fun _ _ => .pure _

/-- The answer whether a schema is sorted is that of the check by the order that the options ask
for. -/
theorem isSorted_looks (options : ComparisonOptions) (schema : Schema) :
    Looks (isSorted collation options schema) desk
      ((options.order collation).mapError .options >>= fun order =>
        Pure.pure (schema.isSorted order)) := by
  refine (nameOrder_looks options).bind fun order between _ _ => ?_
  have passes : schema.isSorted order = (schema.firstUnordered? order).isNone := by
    rw [Bool.eq_iff_iff, Option.isNone_iff_eq_none, Schema.firstUnordered?, List.find?_eq_none,
      Schema.isSorted, List.all_eq_true]
    simp
  rw [passes]
  cases schema.firstUnordered? order with
  | none => exact .pure true
  | some collection => exact .andThen (.note ..) fun _ _ => .pure false

/-- Nothing is printed when a schema is loaded. -/
theorem load_isSilent (path : Text) (format : Option Text) : IsSilent (load path format) :=
  .bind (.note _ _ _) fun _ => .bind .volume fun _ => .ofExcept _

/-- Nothing is printed when a schema is sorted. -/
theorem sort_isSilent (options : ComparisonOptions) (schema : Schema) :
    IsSilent (sort collation options schema) := by
  refine .bind (.bind (.ofExcept _) fun options => ?_) fun order => ?_
  · cases options with
    | none => exact .bind (.note _ _ _) fun _ => .pure _
    | some options => exact .bind (.ofExcept _) fun settings => .bind (.note _ _ _) fun _ => .pure _
  · exact .bind (.ofExcept _) fun sorted => .bind (.note _ _ _) fun _ => .pure _

/-- Directories are made without touching anything but the files. -/
theorem makeDirectories_eq_ok_iff {path : Text} {done : Unit} :
    makeDirectories path desk = (.ok done, after) ↔ ∃ made,
      desk.volume.makeDirectories path = (made, .ok ()) ∧ after = { desk with volume := made } := by
  change (((desk.volume.makeDirectories path).2.mapError Fault.file,
    { desk with volume := (desk.volume.makeDirectories path).1 }) : _ × Desk) = _ ↔ _
  rcases desk.volume.makeDirectories path with ⟨made, outcome⟩
  rw [Prod.mk.injEq, Outcome.mapError_eq_ok_iff]
  constructor
  · rintro ⟨rfl, rfl⟩
    exact ⟨made, rfl, rfl⟩
  · rintro ⟨made, ⟨rfl, rfl⟩, rfl⟩
    exact ⟨rfl, rfl⟩

/-- A file is written by emptying it before its text is encoded. -/
theorem writeFile_eq_ok_iff {path text : Text} {done : Unit} :
    writeFile path text desk = (.ok done, after) ↔ ∃ emptied content written,
      desk.volume.write path [] = .ok emptied ∧ text.encode = .ok content ∧
        emptied.write path content = .ok written ∧ after = { desk with volume := written } := by
  unfold writeFile
  simp only [bind_eq_ok_iff, volume_eq_ok_iff, ofExcept_eq_ok_iff, setVolume_eq_ok_iff,
    Outcome.mapError_eq_ok_iff]
  constructor
  · rintro ⟨_, _, ⟨rfl, rfl⟩, emptied, _, ⟨isEmptied, rfl⟩, _, _, rfl, content, _,
      ⟨encoded, rfl⟩, written, _, ⟨isWritten, rfl⟩, rfl⟩
    exact ⟨emptied, content, written, isEmptied, encoded, isWritten, rfl⟩
  · rintro ⟨emptied, content, written, isEmptied, encoded, isWritten, rfl⟩
    exact ⟨_, _, ⟨rfl, rfl⟩, emptied, _, ⟨isEmptied, rfl⟩, (), _, rfl, content, _,
      ⟨encoded, rfl⟩, written, _, ⟨isWritten, rfl⟩, rfl⟩

/-- A conversion that writes a file reads a schema, sorts it by the order that the options ask for,
and writes its text to the file, for which directories are made. -/
theorem convert_eq_ok_iff {conversion : Conversion} {output result : Text} {written : Volume}
    (isOutput : conversion.output = some output) (nonempty : output ≠ []) :
    (∃ after, convert collation conversion desk = (.ok result, after) ∧ after.volume = written) ↔
      ∃ schema order sorted made emptied content,
        (Source.namedFormat conversion.input conversion.inputFormat).read desk.volume =
          .ok schema ∧
        conversion.options.order collation = .ok order ∧ schema.sorted order = .ok sorted ∧
        sorted.write conversion.outputFormat = .ok result ∧
        desk.volume.makeDirectories (if (Path.directory output).isEmpty then "."
          else Path.directory output) = (made, .ok ()) ∧
        made.write output [] = .ok emptied ∧ result.encode = .ok content ∧
        emptied.write output content = .ok written := by
  have isThere : (!output.isEmpty) = true := by
    rw [Bool.not_eq_true', List.isEmpty_eq_false_iff]
    exact nonempty
  simp only [convert, isOutput, Option.getD_some, isThere, if_true, bind_eq_ok_iff,
    ofExcept_eq_ok_iff, makeDirectories_eq_ok_iff, writeFile_eq_ok_iff]
  constructor
  · rintro ⟨after, ⟨schema, loaded, isLoaded, sorted, arranged, isArranged, text, _, ⟨isText, rfl⟩,
      _, _, ⟨made, isMade, rfl⟩, _, _, ⟨emptied, content, written, isEmptied, encoded, isWritten,
        rfl⟩, _, _, noted, ended⟩, rfl⟩
    obtain ⟨isRead, sameVolume⟩ := (load_looks _ _).of_ok isLoaded
    obtain ⟨sorts, stillSame⟩ := (sort_looks _ _).of_ok isArranged
    obtain ⟨order, isOrder, sorts⟩ := Outcome.bind_eq_ok_iff.mp sorts
    cases noted
    cases ended
    rw [stillSame, sameVolume] at isMade
    exact ⟨schema, order, sorted, made, emptied, content, isRead,
      Outcome.mapError_eq_ok_iff.mp isOrder, sorts, isText, isMade, isEmptied, encoded, isWritten⟩
  · rintro ⟨schema, order, sorted, made, emptied, content, isRead, isOrder, sorts, isText, isMade,
      isEmptied, encoded, isWritten⟩
    have loads : Looks (load conversion.input conversion.inputFormat) desk (.ok schema) :=
      isRead ▸ load_looks _ _
    obtain ⟨loaded, isLoaded, sameVolume⟩ := loads.exists_ok
    have gives : (conversion.options.order collation).mapError Fault.options >>= schema.sorted =
        .ok sorted :=
      Outcome.bind_eq_ok_iff.mpr ⟨order, Outcome.mapError_eq_ok_iff.mpr isOrder, sorts⟩
    have arranges : Looks (sort collation conversion.options schema) loaded (.ok sorted) :=
      gives ▸ sort_looks _ _
    obtain ⟨arranged, isArranged, stillSame⟩ := arranges.exists_ok
    rw [← sameVolume, ← stillSame] at isMade
    refine ⟨_, ⟨schema, loaded, isLoaded, sorted, arranged, isArranged, result, arranged,
      ⟨isText, rfl⟩, (), _, ⟨made, isMade, rfl⟩, (), _, ⟨emptied, content, written, isEmptied,
        encoded, isWritten, rfl⟩, (), _, rfl, rfl⟩, rfl⟩

end Task

end SchemaOrder
