import Mathlib.Data.List.Forall2

/-!
# Outcomes of computations that may fail

A composed computation gives a result exactly when its parts do, and these theorems say
which result that is. `SameResult` compares two computations by what they give, and not
by how they fail: two runs that differ in a detail only a message shows still have the
same result. `Corresponds` relates the results of two runs without saying when there are any.
-/

namespace SchemaOrder.Outcome

variable {ε ε' α β : Type}

/-- A sequence of two computations gives what the second one gives after the first one. -/
theorem bind_eq_ok_iff {first : Except ε α} {next : α → Except ε β} {result : β} :
    (first >>= next) = .ok result ↔ ∃ middle, first = .ok middle ∧ next middle = .ok result := by
  cases first <;> simp [bind, Except.bind]

/-- A computation followed by a function gives the value of the function. -/
theorem map_eq_ok_iff {first : Except ε α} {change : α → β} {result : β} :
    first.map change = .ok result ↔ ∃ middle, first = .ok middle ∧ change middle = result := by
  cases first <;> simp [Except.map]

/-- A function of the result of a sequence is one of the result of its second computation. -/
theorem map_bind {γ : Type} {first : Except ε α} {next : α → Except ε β} {change : β → γ} :
    (first >>= next).map change = first >>= fun middle => (next middle).map change := by
  cases first <;> rfl

/-- What is given without computing. -/
theorem pure_eq_ok_iff {value result : α} :
    (pure value : Except ε α) = .ok result ↔ value = result := by
  simp [pure, Except.pure]

/-- What a failure is called does not matter for success. -/
theorem mapError_eq_ok_iff {computation : Except ε α} {rename : ε → ε'} {result : α} :
    computation.mapError rename = .ok result ↔ computation = .ok result := by
  cases computation <;> simp [Except.mapError]

/-- Renaming failures and changing results do not get in each other's way. -/
theorem map_mapError {computation : Except ε α} {rename : ε → ε'} {change : α → β} :
    (computation.mapError rename).map change = (computation.map change).mapError rename := by
  cases computation <;> rfl

/-- A computation that was seen to succeed has a result. -/
theorem exists_of_isSome_toOption {computation : Except ε α}
    (succeeds : computation.toOption.isSome) : ∃ result, computation = .ok result := by
  cases computation with
  | error fault => cases succeeds
  | ok result => exact ⟨result, rfl⟩

/-- What is left of a computation without its failure is its result. -/
theorem eq_ok_of_toOption {computation : Except ε α} {result : α}
    (given : computation.toOption = some result) : computation = .ok result := by
  cases computation with
  | error fault => cases given
  | ok result => exact congrArg Except.ok (Option.some.inj given)

/-- Every result of computing along a list is the result for one of its things. -/
theorem exists_of_mem_mapM {compute : α → Except ε β} {things : List α} {results : List β}
    (computed : things.mapM compute = .ok results) {result : β} (mem : result ∈ results) :
    ∃ thing ∈ things, compute thing = .ok result := by
  induction things generalizing results with
  | nil =>
      cases computed
      cases mem
  | cons head tail inductionHypothesis =>
      simp only [List.mapM_cons, bind_eq_ok_iff, pure_eq_ok_iff] at computed
      obtain ⟨first, atHead, others, inTail, rfl⟩ := computed
      rcases List.mem_cons.mp mem with rfl | later
      · exact ⟨head, by simp, atHead⟩
      · obtain ⟨thing, thingMem, given⟩ := inductionHypothesis inTail later
        exact ⟨thing, by simp [thingMem], given⟩

/-- What every computation keeps of its thing, computing along a list keeps of the list. -/
theorem map_eq_map_of_mapM {γ : Type} {compute : α → Except ε β} {before : α → γ} {after : β → γ}
    (keeps : ∀ thing result, compute thing = .ok result → after result = before thing)
    {things : List α} {results : List β} (computed : things.mapM compute = .ok results) :
    results.map after = things.map before := by
  induction things generalizing results with
  | nil =>
      cases computed
      rfl
  | cons head tail inductionHypothesis =>
      simp only [List.mapM_cons, bind_eq_ok_iff, pure_eq_ok_iff] at computed
      obtain ⟨first, atHead, others, inTail, rfl⟩ := computed
      rw [List.map_cons, List.map_cons, keeps head first atHead, inductionHypothesis inTail]

/-- Computing along a list gives the results for its things, one for each. -/
theorem forall₂_of_mapM {compute : α → Except ε β} {things : List α} {results : List β}
    (computed : things.mapM compute = .ok results) :
    List.Forall₂ (fun thing result => compute thing = .ok result) things results := by
  induction things generalizing results with
  | nil =>
      cases computed
      exact .nil
  | cons head tail inductionHypothesis =>
      simp only [List.mapM_cons, bind_eq_ok_iff, pure_eq_ok_iff] at computed
      obtain ⟨first, atHead, others, inTail, rfl⟩ := computed
      exact .cons atHead (inductionHypothesis inTail)

/-- What holds of each thing of a list strengthens a relation to another list. -/
theorem forall₂_imp_of_mem {holds : α → Prop} {related weaker : α → β → Prop} {things : List α}
    {results : List β} (all : List.Forall₂ related things results)
    (each : ∀ thing ∈ things, holds thing)
    (implies : ∀ thing result, holds thing → related thing result → weaker thing result) :
    List.Forall₂ weaker things results :=
  ((List.forall₂_and_left _ _).mpr ⟨each, all⟩).imp fun thing result both =>
    implies thing result both.1 both.2

/-- Everything on the right of related lists is related to something on the left. -/
theorem exists_of_mem_forall₂ {related : α → β → Prop} {things : List α} {results : List β}
    (all : List.Forall₂ related things results) {result : β} (mem : result ∈ results) :
    ∃ thing ∈ things, related thing result := by
  induction all with
  | nil => cases mem
  | @cons head first _ _ atHead _ inductionHypothesis =>
      rcases List.mem_cons.mp mem with rfl | later
      · exact ⟨head, by simp, atHead⟩
      · obtain ⟨thing, thingMem, holds⟩ := inductionHypothesis later
        exact ⟨thing, by simp [thingMem], holds⟩

/-- What is related to the same things is related to each other, where it is thing by thing. -/
theorem forall₂_of_common {γ : Type} {left : α → β → Prop} {right : α → γ → Prop}
    {related : β → γ → Prop} {things : List α} {lefts : List β} {rights : List γ}
    (leftAll : List.Forall₂ left things lefts) (rightAll : List.Forall₂ right things rights)
    (each : ∀ thing ∈ things, ∀ first second, left thing first → right thing second →
      related first second) : List.Forall₂ related lefts rights := by
  induction leftAll generalizing rights with
  | nil =>
      cases rightAll
      exact .nil
  | cons leftHead _ inductionHypothesis =>
      cases rightAll with
      | cons rightHead rightTail =>
          exact .cons (each _ (by simp) _ _ leftHead rightHead)
            (inductionHypothesis rightTail fun thing mem => each thing (by simp [mem]))

/-- One relation after the other relates lists, where it is thing by thing. -/
theorem forall₂_trans_of_mem {γ : Type} {first : α → β → Prop} {second : β → γ → Prop}
    {related : α → γ → Prop} {things : List α} {middles : List β} {results : List γ}
    (firstAll : List.Forall₂ first things middles)
    (secondAll : List.Forall₂ second middles results)
    (each : ∀ thing ∈ things, ∀ middle result, first thing middle → second middle result →
      related thing result) : List.Forall₂ related things results := by
  have fromThings := (List.forall₂_and_left _ _).mpr ⟨fun thing mem => mem, firstAll⟩
  exact forall₂_of_common fromThings.flip secondAll
    fun middle _ thing result earlier later => each thing earlier.1 middle result earlier.2 later

/-- Things that are related one by one stand in their lists. -/
theorem forall₂_mem {related : α → β → Prop} {things : List α} {results : List β}
    (all : List.Forall₂ related things results) :
    List.Forall₂ (fun thing result => (thing ∈ things ∧ result ∈ results) ∧ related thing result)
      things results := by
  have fromThings := (List.forall₂_and_left _ _).mpr ⟨fun thing mem => mem, all⟩
  have fromResults := (List.forall₂_and_left _ _).mpr ⟨fun result mem => mem, fromThings.flip⟩
  exact fromResults.flip.imp fun _ _ ⟨resultMem, thingMem, holds⟩ => ⟨⟨thingMem, resultMem⟩, holds⟩

/-- Things to each of which there is a related one are related to some list, one by one. -/
theorem exists_forall₂_of_forall {related : α → β → Prop} {holds : β → Prop}
    {things : List α} (each : ∀ thing ∈ things, ∃ other, holds other ∧ related thing other) :
    ∃ others, List.Forall₂ related things others ∧ ∀ other ∈ others, holds other := by
  induction things with
  | nil => exact ⟨[], .nil, nofun⟩
  | cons head tail inductionHypothesis =>
      obtain ⟨⟨first, firstHolds, isRelated⟩, tailEach⟩ := List.forall_mem_cons.mp each
      obtain ⟨others, areRelated, othersHold⟩ := inductionHypothesis tailEach
      exact ⟨first :: others, .cons isRelated areRelated,
        List.forall_mem_cons.mpr ⟨firstHolds, othersHold⟩⟩

/-- What holds of all things holds of all related ones. -/
theorem forall_mem_iff_of_forall₂ {related : α → β → Prop} {holds : α → Prop} {holds' : β → Prop}
    {things : List α} {results : List β} (all : List.Forall₂ related things results)
    (each : ∀ thing result, related thing result → (holds thing ↔ holds' result)) :
    (∀ thing ∈ things, holds thing) ↔ ∀ result ∈ results, holds' result := by
  induction all with
  | nil => simp
  | cons atHead _ inductionHypothesis =>
      rw [List.forall_mem_cons, List.forall_mem_cons, each _ _ atHead, inductionHypothesis]

/-- Where a thing is related to one result only, so is a list of things. -/
theorem eq_of_forall₂ {related : α → β → Prop} {things : List α} {results others : List β}
    (one : ∀ {thing first second}, related thing first → related thing second → first = second)
    (all : List.Forall₂ related things results) (all' : List.Forall₂ related things others) :
    results = others := by
  rw [← List.forall₂_eq_eq_eq]
  exact forall₂_of_common all all' fun _ _ _ _ => one

/-- Related things of the same value have the same values along their lists. -/
theorem map_eq_map_of_forall₂ {γ : Type} {related : α → β → Prop} {before : α → γ} {after : β → γ}
    {things : List α} {results : List β} (all : List.Forall₂ related things results)
    (each : ∀ thing result, related thing result → after result = before thing) :
    results.map after = things.map before := by
  induction all with
  | nil => rfl
  | cons atHead _ inductionHypothesis =>
      rw [List.map_cons, List.map_cons, each _ _ atHead, inductionHypothesis]

/-- What holds of all values along one list holds along another one with the same values. -/
theorem forall_of_map_eq_map {γ : Type} (holds : γ → Prop) {before : α → γ} {after : β → γ}
    {things : List α} {results : List β} (same : results.map after = things.map before)
    (each : ∀ thing ∈ things, holds (before thing)) : ∀ result ∈ results, holds (after result) :=
  List.forall_mem_map.mp (same ▸ List.forall_mem_map.mpr each)

/-- Doing something along a list succeeds only where it does for each of its things. -/
theorem forall_of_forM {check : α → Except ε Unit} {things : List α}
    (checked : things.forM check = .ok ()) {thing : α} (mem : thing ∈ things) :
    check thing = .ok () := by
  induction things with
  | nil => cases mem
  | cons head tail inductionHypothesis =>
      obtain ⟨⟨⟩, atHead, inTail⟩ := bind_eq_ok_iff.mp checked
      rcases List.mem_cons.mp mem with rfl | later
      · exact atHead
      · exact inductionHypothesis inTail later

/-- What holds of everything that computing gives for a thing of a list holds of everything that
computing along the list gives. -/
theorem forall_mem_flatten_of_mapM {compute : α → Except ε (List β)} {holds : β → Prop}
    {things : List α} (each : ∀ thing results, compute thing = .ok results →
      ∀ result ∈ results, holds result) {parts : List (List β)}
    (computed : things.mapM compute = .ok parts) : ∀ result ∈ parts.flatten, holds result := by
  intro result mem
  obtain ⟨part, partMem, inPart⟩ := List.mem_flatten.mp mem
  obtain ⟨thing, -, made⟩ := exists_of_mem_mapM computed partMem
  exact each thing part made result inPart

/-- A computation that gives what another one gives does so along a list. -/
theorem mapM_eq_ok_of_imp {compute compute' : α → Except ε β}
    (gives : ∀ thing result, compute thing = .ok result → compute' thing = .ok result)
    {things : List α} {results : List β} (computed : things.mapM compute = .ok results) :
    things.mapM compute' = .ok results := by
  induction things generalizing results with
  | nil => exact computed
  | cons head tail inductionHypothesis =>
      simp only [List.mapM_cons, bind_eq_ok_iff, pure_eq_ok_iff] at computed ⊢
      obtain ⟨first, atHead, others, inTail, rfl⟩ := computed
      exact ⟨first, gives head first atHead, others, inductionHypothesis inTail, rfl⟩

/-- Computing along each of several lists computes along all of them together. -/
theorem forall₂_flatten_of_mapM {γ : Type} {compute : β → Except ε γ} {parts : α → List β}
    {things : List α} {results : List (List γ)}
    (computed : things.mapM (fun thing => (parts thing).mapM compute) = .ok results) :
    List.Forall₂ (fun part result => compute part = .ok result) (things.flatMap parts)
      results.flatten := by
  induction things generalizing results with
  | nil =>
      cases computed
      exact .nil
  | cons head tail inductionHypothesis =>
      simp only [List.mapM_cons, bind_eq_ok_iff, pure_eq_ok_iff] at computed
      obtain ⟨first, atHead, others, inTail, rfl⟩ := computed
      rw [List.flatMap_cons, List.flatten_cons]
      exact List.rel_append (forall₂_of_mapM atHead) (inductionHypothesis inTail)

/-- What every successful step keeps, a successful walk along a list keeps. -/
theorem foldlM_keeps {σ : Type} {step : σ → α → Except ε σ} {things : List α} (holds : σ → Prop)
    (keeps : ∀ thing ∈ things, ∀ state next, holds state → step state thing = .ok next →
      holds next) {start finish : σ} (initially : holds start)
    (walked : things.foldlM step start = .ok finish) : holds finish := by
  induction things generalizing start with
  | nil =>
      cases walked
      exact initially
  | cons head tail inductionHypothesis =>
      obtain ⟨middle, atHead, inTail⟩ := bind_eq_ok_iff.mp walked
      exact inductionHypothesis (fun thing mem => keeps thing (by simp [mem]))
        (keeps head (by simp) start middle initially atHead) inTail

/-- Computations that succeed exactly on the things with a property, each with a known
value, succeed on a list exactly when all its things have the property. -/
theorem mapM_eq_ok_iff {compute : α → Except ε β} {succeeds : α → Prop} {value : α → β}
    {things : List α}
    (each : ∀ thing ∈ things, ∀ result,
      compute thing = .ok result ↔ succeeds thing ∧ result = value thing)
    {results : List β} :
    things.mapM compute = .ok results ↔
      (∀ thing ∈ things, succeeds thing) ∧ results = things.map value := by
  induction things generalizing results with
  | nil => simp [pure, Except.pure, eq_comm]
  | cons head tail inductionHypothesis =>
      have atHead := each head (by simp)
      have inTail : ∀ results, tail.mapM compute = .ok results ↔
          (∀ thing ∈ tail, succeeds thing) ∧ results = tail.map value :=
        fun _ => inductionHypothesis fun thing mem => each thing (by simp [mem])
      simp only [List.mapM_cons, bind_eq_ok_iff, pure_eq_ok_iff, atHead, inTail]
      constructor
      · rintro ⟨_, ⟨headSucceeds, rfl⟩, _, ⟨tailSucceeds, rfl⟩, rfl⟩
        exact ⟨by simpa [headSucceeds] using tailSucceeds, rfl⟩
      · rintro ⟨allSucceed, rfl⟩
        exact ⟨_, ⟨allSucceed head (by simp), rfl⟩, _,
          ⟨fun thing mem => allSucceed thing (by simp [mem]), rfl⟩, rfl⟩

/-- Computations that succeed on every thing of a list give all their values. -/
theorem mapM_eq_ok {compute : α → Except ε β} {value : α → β} {things : List α}
    (each : ∀ thing ∈ things, compute thing = .ok (value thing)) :
    things.mapM compute = .ok (things.map value) := by
  have exact : ∀ thing ∈ things, ∀ result,
      compute thing = .ok result ↔ True ∧ result = value thing := by
    intro thing mem result
    rw [each thing mem, true_and, Except.ok.injEq, eq_comm]
  exact (mapM_eq_ok_iff exact).mpr ⟨fun _ _ => trivial, rfl⟩

/-- Computing along a list and keeping the things beside their results is computing first and
putting them beside the results afterwards. -/
theorem mapM_beside {compute : α → Except ε β} (things : List α) :
    things.mapM (fun thing => (compute thing).map (thing, ·)) =
      (things.mapM compute).map (things.zip ·) := by
  induction things with
  | nil => rfl
  | cons thing others inductionHypothesis =>
      rw [List.mapM_cons, List.mapM_cons, inductionHypothesis]
      cases compute thing with
      | error fault => rfl
      | ok result => cases others.mapM compute <;> rfl

/-- Two computations that give the same result, or that both fail. -/
def SameResult (left : Except ε α) (right : Except ε' α) : Prop :=
  left.toOption = right.toOption

namespace SameResult

/-- A computation gives its own result. -/
theorem refl (computation : Except ε α) : SameResult computation computation :=
  rfl

/-- A result of one computation is the result of the other one. -/
theorem eq_ok {left : Except ε α} {right : Except ε' α} (same : SameResult left right)
    {result : α} (given : left = .ok result) : right = .ok result := by
  subst given
  cases right with
  | error fault => cases same
  | ok other =>
      cases same
      rfl

/-- Two results are the same. -/
theorem eq_of_ok {left : Except ε α} {right : Except ε' α} (same : SameResult left right)
    {first second : α} (leftGives : left = .ok first) (rightGives : right = .ok second) :
    first = second := by
  have sameGiven := same.eq_ok leftGives
  rw [rightGives] at sameGiven
  exact (Except.ok.inj sameGiven).symm

/-- Computations with the same result may be followed by such computations. -/
theorem bind {left : Except ε α} {right : Except ε' α} {leftNext : α → Except ε β}
    {rightNext : α → Except ε' β} (same : SameResult left right)
    (next : ∀ middle, SameResult (leftNext middle) (rightNext middle)) :
    SameResult (left >>= leftNext) (right >>= rightNext) := by
  cases left <;> cases right <;> cases same
  · rfl
  · exact next _

/-- What a failure is called does not matter. -/
theorem mapError {left right : Except ε α} (same : SameResult left right) (rename : ε → ε') :
    SameResult (left.mapError rename) (right.mapError rename) := by
  cases left <;> cases right <;> cases same <;> rfl

/-- Lists whose things give the same results one by one give the same results. -/
theorem mapM {γ : Type} {leftCompute : α → Except ε γ} {rightCompute : β → Except ε γ}
    {lefts : List α} {rights : List β}
    (same : List.Forall₂ (fun left right => SameResult (leftCompute left) (rightCompute right))
      lefts rights) :
    SameResult (lefts.mapM leftCompute) (rights.mapM rightCompute) := by
  induction same with
  | nil => rfl
  | cons head _ inductionHypothesis =>
      rw [List.mapM_cons, List.mapM_cons]
      exact head.bind fun _ => inductionHypothesis.bind fun _ => refl _

end SameResult

/-- Two computations whose results are related, if both give one. -/
def Corresponds (related : α → β → Prop) (left : Except ε α) (right : Except ε' β) : Prop :=
  ∀ first second, left = .ok first → right = .ok second → related first second

namespace Corresponds

variable {related : α → β → Prop} {left : Except ε α} {right : Except ε' β}

/-- Computations with the same result have equal results. -/
theorem of_sameResult {left right : Except ε α} (same : SameResult left right) :
    Corresponds Eq left right :=
  fun _ _ => same.eq_of_ok

/-- Related results without computing. -/
theorem ok {first : α} {second : β} (holds : related first second) :
    Corresponds related (.ok first : Except ε α) (.ok second : Except ε' β) := by
  rintro _ _ ⟨⟩ ⟨⟩
  exact holds

/-- A failure has no result that would have to be related. -/
theorem of_error_left (fault : ε) (right : Except ε' β) :
    Corresponds related (.error fault : Except ε α) right := by
  rintro _ _ ⟨⟩

/-- A failure has no result that would have to be related. -/
theorem of_error_right (left : Except ε α) (fault : ε') :
    Corresponds related left (.error fault : Except ε' β) := by
  rintro _ _ _ ⟨⟩

/-- Where results are related, what follows may start from related results. -/
theorem bind {γ δ : Type} {related' : γ → δ → Prop} {leftNext : α → Except ε γ}
    {rightNext : β → Except ε' δ} (corresponds : Corresponds related left right)
    (next : ∀ first second, related first second →
      Corresponds related' (leftNext first) (rightNext second)) :
    Corresponds related' (left >>= leftNext) (right >>= rightNext) := by
  intro last last' leftGives rightGives
  obtain ⟨first, leftFirst, leftLast⟩ := bind_eq_ok_iff.mp leftGives
  obtain ⟨second, rightFirst, rightLast⟩ := bind_eq_ok_iff.mp rightGives
  exact next first second (corresponds first second leftFirst rightFirst) last last' leftLast
    rightLast

/-- Lists whose things correspond one by one have results that correspond one by one. -/
theorem mapM {γ δ : Type} {related' : γ → δ → Prop} {leftCompute : α → Except ε γ}
    {rightCompute : β → Except ε' δ} {lefts : List α} {rights : List β}
    (each : List.Forall₂ (fun left right =>
      Corresponds related' (leftCompute left) (rightCompute right)) lefts rights) :
    Corresponds (List.Forall₂ related') (lefts.mapM leftCompute) (rights.mapM rightCompute) := by
  induction each with
  | nil => exact ok .nil
  | cons head _ inductionHypothesis =>
      rw [List.mapM_cons, List.mapM_cons]
      exact head.bind fun _ _ first =>
        inductionHypothesis.bind fun _ _ rest => ok (.cons first rest)

/-- Folding over lists that correspond thing by thing keeps states related, if each step does. -/
theorem foldlM {σ τ : Type} {states : σ → τ → Prop} {leftStep : σ → α → Except ε σ}
    {rightStep : τ → β → Except ε' τ} {lefts : List α} {rights : List β}
    (things : List.Forall₂ related lefts rights)
    (step : ∀ first second, related first second → ∀ leftState rightState,
      states leftState rightState →
        Corresponds states (leftStep leftState first) (rightStep rightState second))
    {leftStart : σ} {rightStart : τ} (start : states leftStart rightStart) :
    Corresponds states (lefts.foldlM leftStep leftStart) (rights.foldlM rightStep rightStart) := by
  induction things generalizing leftStart rightStart with
  | nil => exact ok start
  | cons head _ inductionHypothesis =>
      rw [List.foldlM_cons, List.foldlM_cons]
      exact (step _ _ head _ _ start).bind fun _ _ next => inductionHypothesis next

/-- Folding over one list keeps states related, if each step does. -/
theorem foldlM_same {σ τ : Type} {states : σ → τ → Prop} {leftStep : σ → α → Except ε σ}
    {rightStep : τ → α → Except ε' τ} (things : List α)
    (step : ∀ thing leftState rightState, states leftState rightState →
      Corresponds states (leftStep leftState thing) (rightStep rightState thing))
    {leftStart : σ} {rightStart : τ} (start : states leftStart rightStart) :
    Corresponds states (things.foldlM leftStep leftStart) (things.foldlM rightStep rightStart) := by
  have sameThings : List.Forall₂ Eq things things := List.forall₂_same.mpr fun _ _ => rfl
  apply foldlM sameThings _ start
  rintro thing _ rfl leftState rightState related
  exact step thing leftState rightState related

end Corresponds

/-- A computation that fails only in ways that are allowed. -/
def FailsWithin (allowed : ε → Prop) (computation : Except ε α) : Prop :=
  ∀ fault, computation = .error fault → allowed fault

namespace FailsWithin

variable {allowed : ε → Prop}

/-- What succeeds does not fail. -/
theorem ok (result : α) : FailsWithin allowed (.ok result : Except ε α) :=
  nofun

/-- An allowed fault is a failure within what is allowed. -/
theorem error {fault : ε} (isAllowed : allowed fault) :
    FailsWithin allowed (.error fault : Except ε α) := by
  rintro _ ⟨⟩
  exact isAllowed

/-- What fails only in allowed ways may be followed by what does. -/
theorem bind {computation : Except ε α} {next : α → Except ε β}
    (first : FailsWithin allowed computation)
    (second : ∀ result, FailsWithin allowed (next result)) :
    FailsWithin allowed (computation >>= next) := by
  cases computation with
  | error fault => exact error (first fault rfl)
  | ok result => exact second result

/-- What follows need only be looked at for results that there are. -/
theorem bindResult {computation : Except ε α} {next : α → Except ε β}
    (first : FailsWithin allowed computation)
    (second : ∀ result, computation = .ok result → FailsWithin allowed (next result)) :
    FailsWithin allowed (computation >>= next) := by
  cases computation with
  | error fault => exact error (first fault rfl)
  | ok result => exact second result rfl

/-- More ways may be allowed. -/
theorem imp {allowed' : ε → Prop} {computation : Except ε α}
    (fails : FailsWithin allowed computation) (more : ∀ fault, allowed fault → allowed' fault) :
    FailsWithin allowed' computation :=
  fun fault failed => more fault (fails fault failed)

/-- Computing along a list fails only in the ways its steps do. -/
theorem mapM_of_mem {compute : α → Except ε β} {things : List α}
    (each : ∀ thing ∈ things, FailsWithin allowed (compute thing)) :
    FailsWithin allowed (things.mapM compute) := by
  induction things with
  | nil => exact ok []
  | cons head tail inductionHypothesis =>
      obtain ⟨atHead, inTail⟩ := List.forall_mem_cons.mp each
      rw [List.mapM_cons]
      exact atHead.bind fun _ => (inductionHypothesis inTail).bind fun _ => ok _

/-- The same holds where no thing of the list is special. -/
theorem mapM {compute : α → Except ε β} (each : ∀ thing, FailsWithin allowed (compute thing))
    (things : List α) : FailsWithin allowed (things.mapM compute) :=
  mapM_of_mem fun thing _ => each thing

/-- Doing something along a list fails only in the ways it does for one of its things. -/
theorem forM {check : α → Except ε Unit} (each : ∀ thing, FailsWithin allowed (check thing))
    (things : List α) : FailsWithin allowed (things.forM check) := by
  induction things with
  | nil => exact ok ()
  | cons head tail inductionHypothesis => exact (each head).bind fun _ => inductionHypothesis

/-- A function of the result changes nothing about the failures. -/
theorem map {computation : Except ε α} (fails : FailsWithin allowed computation)
    (change : α → β) : FailsWithin allowed (computation.map change) := by
  cases computation with
  | error fault => exact error (fails fault rfl)
  | ok result => exact ok _

/-- Folding fails only in the ways its steps do. -/
theorem foldlM {σ : Type} {step : σ → α → Except ε σ} {things : List α}
    (each : ∀ thing ∈ things, ∀ state, FailsWithin allowed (step state thing)) (start : σ) :
    FailsWithin allowed (things.foldlM step start) := by
  induction things generalizing start with
  | nil => exact ok start
  | cons head tail inductionHypothesis =>
      obtain ⟨atHead, inTail⟩ := List.forall_mem_cons.mp each
      exact (atHead start).bind (inductionHypothesis inTail)

/-- Renamed failures are allowed where the names of those that there are, are. -/
theorem mapError_of {allowed' : ε' → Prop} {computation : Except ε' α} {rename : ε' → ε}
    (fails : FailsWithin allowed' computation)
    (isAllowed : ∀ fault, allowed' fault → allowed (rename fault)) :
    FailsWithin allowed (computation.mapError rename) := by
  cases computation with
  | error fault => exact error (isAllowed fault (fails fault rfl))
  | ok result => exact ok result

/-- Renamed failures are allowed where every name is. -/
theorem mapError {computation : Except ε' α} {rename : ε' → ε}
    (isAllowed : ∀ fault, allowed (rename fault)) :
    FailsWithin allowed (computation.mapError rename) :=
  mapError_of (fun _ _ => trivial : FailsWithin (fun _ => True) computation)
    fun fault _ => isAllowed fault

end FailsWithin

end SchemaOrder.Outcome
