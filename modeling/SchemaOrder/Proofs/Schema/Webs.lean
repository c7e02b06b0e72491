import SchemaOrder.Proofs.Collections
import SchemaOrder.Proofs.Outcome
import SchemaOrder.Proofs.Parallel
import SchemaOrder.Schema.Web

/-!
# Collecting in webs

What holds of everything that is collected in a web. Collecting never comes to the bound on its
depth: `collect_of_enough` says that from a certain bound on all bounds are the same, and
`collect_settles` that all is collected then that the listed things lead to. Where they lead to each
other only, they are all there is, by `collect_of_closed`; and whatever is collected, what holds of
the things that may be led to holds of it, by `forall_of_collect`.

A web may be the image of another one in which there are more keys; where only some of these are
ever led to, and every key of the image stands in the place of one of them, `Image.collect` says
that collecting goes the same way in both.
-/

namespace SchemaOrder.Schema.Web

open Outcome

variable {ε κ ν : Type}

/-- The state after a thing is collected, before what it leads to is. -/
def enter (web : Web ε κ ν) (state : Gathered κ ν) (thing : ν) : Gathered κ ν :=
  ⟨web.key thing :: state.known, thing :: state.collected⟩

section Settling

variable {web : Web ε κ ν} {start finish : Gathered κ ν} {thing : ν}

/-- A thing leads to nothing that can be found under keys other than some known ones. -/
def LeadsInto (web : Web ε κ ν) (known : List κ) (thing : ν) : Prop :=
  ∀ keys, .ok keys ∈ web.stages thing → ∀ key ∈ keys, (web.find? key).isSome → key ∈ known

/-- What a stretch of a walk has done when it ends: nothing is forgotten, and the things that it
collected lead to nothing that is unknown. -/
structure Settles (web : Web ε κ ν) (start finish : Gathered κ ν) : Prop where
  known : start.known ⊆ finish.known
  collected : start.collected ⊆ finish.collected
  entered : ∀ thing ∈ finish.collected,
    thing ∈ start.collected ∨ web.LeadsInto finish.known thing

namespace Settles

/-- A state from which nothing is collected settles to itself. -/
theorem refl (web : Web ε κ ν) (state : Gathered κ ν) : web.Settles state state where
  known := List.Subset.refl _
  collected := List.Subset.refl _
  entered := fun _ mem => .inl mem

/-- Two stretches of a walk, one after the other. -/
theorem trans {middle : Gathered κ ν} (earlier : web.Settles start middle)
    (later : web.Settles middle finish) : web.Settles start finish where
  known := List.Subset.trans earlier.known later.known
  collected := List.Subset.trans earlier.collected later.collected
  entered := by
    intro thing mem
    rcases later.entered thing mem with before | settled
    · exact (earlier.entered thing before).imp_right fun settled keys stage key keyMem isFound =>
        later.known (settled keys stage key keyMem isFound)
    · exact .inr settled

/-- A thing is left when everything that it leads to is known. -/
theorem enter (settles : web.Settles (web.enter start thing) finish)
    (leads : web.LeadsInto finish.known thing) : web.Settles start finish where
  known := List.Subset.trans (List.subset_cons_self _ _) settles.known
  collected := List.Subset.trans (List.subset_cons_self _ _) settles.collected
  entered := by
    intro other mem
    rcases settles.entered other mem with before | settled
    · rcases List.mem_cons.mp before with rfl | earlier
      · exact .inr leads
      · exact .inl earlier
    · exact .inr settled

end Settles

/-- If every step of a walk settles, and comes to what it should come to, so does the walk. -/
theorem foldlM_settles {α : Type} {step : Gathered κ ν → α → Except ε (Gathered κ ν)}
    (comesTo : α → Gathered κ ν → Prop) {things : List α}
    (stays : ∀ thing state later, web.Settles state later → comesTo thing state →
      comesTo thing later) {enough : List κ}
    (each : ∀ state thing next, enough ⊆ state.known → step state thing = .ok next →
      web.Settles state next ∧ comesTo thing next)
    (initially : enough ⊆ start.known) (walked : things.foldlM step start = .ok finish) :
    web.Settles start finish ∧ ∀ thing ∈ things, comesTo thing finish := by
  induction things generalizing start with
  | nil =>
      cases walked
      exact ⟨.refl web _, List.forall_mem_nil _⟩
  | cons head tail inductionHypothesis =>
      obtain ⟨middle, atHead, inTail⟩ := bind_eq_ok_iff.mp walked
      obtain ⟨earlier, comesToHead⟩ := each start head middle initially atHead
      obtain ⟨later, comesToTail⟩ :=
        inductionHypothesis (List.Subset.trans initially earlier.known) inTail
      exact ⟨earlier.trans later,
        List.forall_mem_cons.mpr ⟨stays head middle finish later comesToHead, comesToTail⟩⟩

end Settling

section Walks

variable [BEq κ]

/-- A thing is collected by collecting what it leads to behind it. -/
theorem visit_succ (web : Web ε κ ν) (fuel : Nat) (thing : ν) (state : Gathered κ ν) :
    web.visit (fuel + 1) thing state = (web.stages thing).foldlM (fun state stage => do
      let keys ← stage
      keys.foldlM (web.visitKey fuel) state) (web.enter state thing) :=
  rfl

variable {web : Web ε κ ν} {state start finish : Gathered κ ν} {key : κ} {thing : ν}
  {fuel fuel' : Nat}

/-- If visiting a key settles it from wherever enough is known, so does visiting several. -/
theorem foldlM_visitKey_settles {enough keys : List κ}
    (each : ∀ (state : Gathered κ ν) key next, enough ⊆ state.known →
      web.visitKey fuel state key = .ok next →
      web.Settles state next ∧ ((web.find? key).isSome → key ∈ next.known))
    (initially : enough ⊆ start.known)
    (walked : keys.foldlM (web.visitKey fuel) start = .ok finish) :
    web.Settles start finish ∧ ∀ key ∈ keys, (web.find? key).isSome → key ∈ finish.known :=
  foldlM_settles (fun key state => (web.find? key).isSome → key ∈ state.known)
    (fun _ _ _ later known isFound => later.known (known isFound)) each initially walked

/-- If visiting a key settles it from wherever enough is known, so does visiting a thing with a
bound that is one higher. -/
theorem visit_settles {enough : List κ}
    (each : ∀ (state : Gathered κ ν) key next, enough ⊆ state.known →
      web.visitKey fuel state key = .ok next →
      web.Settles state next ∧ ((web.find? key).isSome → key ∈ next.known))
    (entered : enough ⊆ (web.enter start thing).known)
    (visited : web.visit (fuel + 1) thing start = .ok finish) :
    web.Settles start finish ∧ web.key thing ∈ finish.known ∧ thing ∈ finish.collected := by
  rw [visit_succ] at visited
  obtain ⟨settles, leads⟩ := foldlM_settles
    (fun (stage : Except ε (List κ)) state => ∀ keys, .ok keys = stage →
      ∀ key ∈ keys, (web.find? key).isSome → key ∈ state.known)
    (fun _ _ _ later leads keys isStage key mem isFound =>
      later.known (leads keys isStage key mem isFound))
    (fun state stage next initially staged => by
      obtain ⟨keys, rfl, walked⟩ := bind_eq_ok_iff.mp staged
      obtain ⟨settles, known⟩ := foldlM_visitKey_settles each initially walked
      refine ⟨settles, ?_⟩
      rintro _ ⟨⟩
      exact known) entered visited
  exact ⟨settles.enter fun keys stage => leads _ stage keys rfl,
    settles.known (List.mem_cons_self ..), settles.collected (List.mem_cons_self ..)⟩

/-- Visiting a key fails only in the ways that visiting what it leads to does. -/
theorem visitKey_failsWithin {allowed : ε → Prop}
    (visits : ∀ thing, web.find? key = some thing →
      FailsWithin allowed (web.visit fuel thing state)) :
    FailsWithin allowed (web.visitKey fuel state key) := by
  unfold visitKey
  split
  · exact .ok _
  · split
    · next isFound => exact visits _ isFound
    · exact .ok _

variable [LawfulBEq κ]

/-- A key that is known already changes nothing. -/
theorem visitKey_of_known (fuel : Nat) (known : key ∈ state.known) :
    web.visitKey fuel state key = .ok state := by
  simp [visitKey, known]

/-- A key that leads nowhere changes nothing. -/
theorem visitKey_of_missing (fuel : Nat) (missing : web.find? key = none) :
    web.visitKey fuel state key = .ok state := by
  simp [visitKey, missing]

/-- A key that is not known is visited by visiting what it leads to. -/
theorem visitKey_of_found (fuel : Nat) (unknown : key ∉ state.known)
    (found : web.find? key = some thing) :
    web.visitKey fuel state key = web.visit fuel thing state := by
  simp [visitKey, unknown, found]

/-- What visiting what a key leads to keeps, visiting the key keeps. -/
theorem keeps_of_visitKey (holds : Gathered κ ν → Prop) (before : holds start)
    (visits : ∀ thing, web.find? key = some thing → web.visit fuel thing start = .ok finish →
      holds finish) (visited : web.visitKey fuel start key = .ok finish) : holds finish := by
  by_cases known : key ∈ start.known
  · cases (visitKey_of_known fuel known).symm.trans visited
    exact before
  · cases found : web.find? key with
    | none =>
        cases (visitKey_of_missing fuel found).symm.trans visited
        exact before
    | some thing =>
        rw [visitKey_of_found fuel known found] at visited
        exact visits thing found visited

/-- What entering any thing that may be led to keeps, visiting such a thing keeps. -/
theorem keeps_of_visit (holds : Gathered κ ν → Prop) (mayBe : ν → Prop)
    (enters : ∀ state thing, mayBe thing → holds state → holds (web.enter state thing))
    (found : ∀ key thing, web.find? key = some thing → mayBe thing) (here : mayBe thing)
    (before : holds start) (visited : web.visit fuel thing start = .ok finish) : holds finish := by
  induction fuel generalizing thing start finish with
  | zero =>
      cases visited
      exact before
  | succ fuel inductionHypothesis =>
      refine foldlM_keeps holds ?_ (enters start thing here before) visited
      intro stage _ state next before staged
      obtain ⟨keys, -, walked⟩ := bind_eq_ok_iff.mp staged
      refine foldlM_keeps holds ?_ before walked
      intro key _ state next before stepped
      exact keeps_of_visitKey holds before (fun thing isFound visited =>
        inductionHypothesis (found key thing isFound) before visited) stepped

/-- Visiting a thing forgets no key. -/
theorem known_of_visit (visited : web.visit fuel thing start = .ok finish) :
    start.known ⊆ finish.known := by
  refine keeps_of_visit (fun state => start.known ⊆ state.known) (fun _ => True) ?_
    (fun _ _ _ => trivial) trivial (List.Subset.refl _) visited
  exact fun _ _ _ before => List.subset_cons_of_subset _ before

/-- Visiting a key forgets no key. -/
theorem known_of_visitKey (visited : web.visitKey fuel start key = .ok finish) :
    start.known ⊆ finish.known :=
  keeps_of_visitKey (fun state => start.known ⊆ state.known) (List.Subset.refl _)
    (fun _ _ visited => known_of_visit visited) visited

section Inherited

variable {mayBe : ν → Prop} (found : ∀ key thing, web.find? key = some thing → mayBe thing)
include found

/-- What holds of all that is listed and of all that may be led to holds of all that is
collected. -/
theorem forall_of_collect {listed things : List ν} {leads : List κ}
    (here : ∀ thing ∈ listed, mayBe thing)
    (collects : web.collect fuel listed leads = .ok things) : ∀ thing ∈ things, mayBe thing := by
  have visits {thing : ν} {state next : Gathered κ ν} (isOne : mayBe thing)
      (before : ∀ other ∈ state.collected, mayBe other)
      (visited : web.visit fuel thing state = .ok next) :
      ∀ other ∈ next.collected, mayBe other :=
    keeps_of_visit (fun state => ∀ other ∈ state.collected, mayBe other) mayBe
      (fun _ _ isOne before => List.forall_mem_cons.mpr ⟨isOne, before⟩) found isOne before visited
  obtain ⟨first, visited, rest⟩ := bind_eq_ok_iff.mp collects
  obtain ⟨last, walked, ended⟩ := bind_eq_ok_iff.mp rest
  obtain rfl := pure_eq_ok_iff.mp ended
  have start : ∀ thing ∈ first.collected, mayBe thing := by
    refine foldlM_keeps (fun state => ∀ other ∈ state.collected, mayBe other) ?_
      (List.forall_mem_nil _) visited
    intro thing mem state next before stepped
    exact visits (here thing mem) before stepped
  have finish : ∀ thing ∈ last.collected, mayBe thing := by
    refine foldlM_keeps (fun state => ∀ other ∈ state.collected, mayBe other) ?_ start walked
    intro key _ state next before stepped
    exact keeps_of_visitKey (fun state => ∀ other ∈ state.collected, mayBe other) before
      (fun thing isFound visited => visits (found key thing isFound) before visited) stepped
  exact fun thing mem => finish thing (List.mem_reverse.mp mem)

variable {allowed : ε → Prop}
  (leads : ∀ thing, mayBe thing → ∀ stage ∈ web.stages thing, FailsWithin allowed stage)
include leads

omit [LawfulBEq κ] in
/-- Visiting a thing fails only in the ways that working out what things lead to does. -/
theorem visit_failsWithin (fuel : Nat) (here : mayBe thing) (state : Gathered κ ν) :
    FailsWithin allowed (web.visit fuel thing state) := by
  induction fuel generalizing thing state with
  | zero => exact .ok _
  | succ fuel inductionHypothesis =>
      rw [visit_succ]
      refine FailsWithin.foldlM (fun stage mem state => ?_) _
      refine (leads thing here stage mem).bind fun keys => ?_
      refine FailsWithin.foldlM (fun key _ state => visitKey_failsWithin fun thing isFound => ?_) _
      exact inductionHypothesis (found key thing isFound) state

omit [LawfulBEq κ] in
/-- Collecting fails only in the ways that working out what things lead to does. -/
theorem collect_failsWithin (fuel : Nat) {listed : List ν} (here : ∀ thing ∈ listed, mayBe thing)
    (keys : List κ) : FailsWithin allowed (web.collect fuel listed keys) := by
  refine (FailsWithin.foldlM (fun thing mem state =>
    visit_failsWithin found leads fuel (here thing mem) state) _).bind fun first => ?_
  refine (FailsWithin.foldlM (fun key _ state => visitKey_failsWithin fun thing isFound => ?_)
    _).bind fun _ => .ok _
  exact visit_failsWithin found leads fuel (found key thing isFound) state

end Inherited

variable {keys : List κ}

/-- Keys that are known already change nothing. -/
theorem foldlM_visitKey_of_known (fuel : Nat) (known : keys ⊆ state.known) :
    keys.foldlM (web.visitKey fuel) state = .ok state := by
  induction keys with
  | nil => rfl
  | cons head tail inductionHypothesis =>
      rw [List.foldlM_cons, visitKey_of_known fuel (known (List.mem_cons_self ..))]
      exact inductionHypothesis fun key mem => known (List.mem_cons_of_mem _ mem)

/-- Where a thing leads to known keys only, nothing but the thing itself is collected. -/
theorem visit_of_closed (fuel : Nat)
    (closed : ∀ stage ∈ web.stages thing, ∃ keys, stage = .ok keys ∧ keys ⊆ state.known) :
    web.visit (fuel + 1) thing state = .ok (web.enter state thing) := by
  rw [visit_succ]
  generalize web.stages thing = stages at closed ⊢
  induction stages with
  | nil => rfl
  | cons head tail inductionHypothesis =>
      obtain ⟨keys, rfl, known⟩ := closed head (List.mem_cons_self ..)
      rw [List.foldlM_cons]
      have passed : keys.foldlM (web.visitKey fuel) (web.enter state thing) =
          .ok (web.enter state thing) :=
        foldlM_visitKey_of_known fuel (List.subset_cons_of_subset _ known)
      exact (congrArg (· >>= _) passed).trans
        (inductionHypothesis fun stage mem => closed stage (List.mem_cons_of_mem _ mem))

/-- Where the listed things and some keys lead to listed things only, exactly the listed things are
collected. -/
theorem collect_of_closed (fuel : Nat) {listed : List ν} {leads : List κ}
    (closed : ∀ thing ∈ listed, ∀ stage ∈ web.stages thing,
      ∃ keys, stage = .ok keys ∧ keys ⊆ listed.map web.key)
    (own : leads ⊆ listed.map web.key) : web.collect (fuel + 1) listed leads = .ok listed := by
  have passThings (things : List ν) (areListed : things ⊆ listed) (state : Gathered κ ν)
      (known : listed.map web.key ⊆ state.known) : ∃ finish, listed.map web.key ⊆ finish.known ∧
        finish.collected = things.reverse ++ state.collected ∧
        things.foldlM (fun state thing => web.visit (fuel + 1) thing state) state = .ok finish := by
    induction things generalizing state with
    | nil => exact ⟨state, known, rfl, rfl⟩
    | cons head tail inductionHypothesis =>
        have visited : web.visit (fuel + 1) head state = .ok (web.enter state head) :=
          visit_of_closed fuel fun stage mem => by
            obtain ⟨keys, rfl, inListed⟩ :=
              closed head (areListed (List.mem_cons_self ..)) stage mem
            exact ⟨keys, rfl, List.Subset.trans inListed known⟩
        obtain ⟨finish, finishKnown, collected, walked⟩ := inductionHypothesis
          (fun thing mem => areListed (List.mem_cons_of_mem _ mem)) (web.enter state head)
          (List.subset_cons_of_subset _ known)
        refine ⟨finish, finishKnown, by simp [collected, enter], ?_⟩
        rw [List.foldlM_cons, visited]
        exact walked
  obtain ⟨finish, known, collected, walked⟩ :=
    passThings listed (List.Subset.refl _) ⟨listed.map web.key, []⟩ (List.Subset.refl _)
  have passed : leads.foldlM (web.visitKey (fuel + 1)) finish = .ok finish :=
    foldlM_visitKey_of_known (fuel + 1) (List.Subset.trans own known)
  refine bind_eq_ok_iff.mpr ⟨finish, walked, bind_eq_ok_iff.mpr ⟨finish, passed, ?_⟩⟩
  rw [collected, List.append_nil, List.reverse_reverse]
  rfl

/-- How many of some keys are not known. -/
def unknownOf (keys : List κ) (state : Gathered κ ν) : Nat :=
  keys.countP fun key => !state.known.contains key

/-- Where more is known, less is unknown. -/
theorem unknownOf_le (keys : List κ) (known : start.known ⊆ finish.known) :
    unknownOf keys finish ≤ unknownOf keys start := by
  apply List.countP_mono_left
  intro key _ unknown
  simp only [List.contains_eq_mem, Bool.not_eq_true', decide_eq_false_iff_not] at unknown ⊢
  exact fun mem => unknown (known mem)

/-- Entering a thing whose key is not known leaves less unknown. -/
theorem unknownOf_enter (mem : web.key thing ∈ keys) (fresh : web.key thing ∉ state.known) :
    unknownOf keys (web.enter state thing) < unknownOf keys state := by
  refine countP_lt_countP ?_ mem (by simp [enter]) (by simpa using fresh)
  intro key _ unknown
  simp only [enter, List.contains_eq_mem, List.mem_cons, Bool.not_eq_true',
    decide_eq_false_iff_not, not_or] at unknown ⊢
  exact unknown.2

/-- Some keys are all that lead to anything: what is found under a key has that key, and it is one
of them. -/
def IsSpannedBy (web : Web ε κ ν) (keys : List κ) : Prop :=
  ∀ key thing, web.find? key = some thing → web.key thing = key ∧ key ∈ keys

/-- Two walks through keys that take the same steps from every state in which at least the same is
known are the same. -/
theorem foldlM_congr {α σ : Type} {step step' : σ → α → Except ε σ} (holds : σ → Prop)
    (same : ∀ state thing, holds state → step state thing = step' state thing)
    (keeps : ∀ state thing next, holds state → step state thing = .ok next → holds next)
    (things : List α) {start : σ} (initially : holds start) :
    things.foldlM step start = things.foldlM step' start := by
  induction things generalizing start with
  | nil => rfl
  | cons head tail inductionHypothesis =>
      rw [List.foldlM_cons, List.foldlM_cons, ← same start head initially]
      cases stepped : step start head with
      | error fault => rfl
      | ok next => exact inductionHypothesis (keeps start head next initially stepped)

/-- If visiting keys goes the same way with two bounds from wherever enough is known, so does
visiting a thing with bounds that are one higher. -/
theorem visit_congr (known : List κ)
    (same : ∀ (state : Gathered κ ν) key, known ⊆ state.known →
      web.visitKey fuel state key = web.visitKey fuel' state key)
    (entered : known ⊆ (web.enter state thing).known) :
    web.visit (fuel + 1) thing state = web.visit (fuel' + 1) thing state := by
  rw [visit_succ, visit_succ]
  refine foldlM_congr (fun state => known ⊆ state.known) ?_ ?_ _ entered
  · intro state stage enough
    congr 1
    funext keys
    exact foldlM_congr (fun state => known ⊆ state.known) (fun state key => same state key)
      (fun _ _ _ enough visited => List.Subset.trans enough (known_of_visitKey visited)) keys enough
  · intro state stage next enough staged
    obtain ⟨keys, -, walked⟩ := bind_eq_ok_iff.mp staged
    exact foldlM_keeps (fun state => known ⊆ state.known)
      (fun _ _ _ _ enough visited => List.Subset.trans enough (known_of_visitKey visited)) enough
      walked

/-- Visiting a key goes the same way with all bounds that are not below the number of unknown
keys. -/
theorem visitKey_of_enough (spanned : web.IsSpannedBy keys) (enough : unknownOf keys state ≤ fuel)
    (enough' : unknownOf keys state ≤ fuel') :
    web.visitKey fuel state key = web.visitKey fuel' state key := by
  induction fuel generalizing fuel' state key with
  | zero =>
      by_cases known : key ∈ state.known
      · rw [visitKey_of_known _ known, visitKey_of_known _ known]
      · cases found : web.find? key with
        | none => rw [visitKey_of_missing _ found, visitKey_of_missing _ found]
        | some thing =>
            obtain ⟨rfl, mem⟩ := spanned key thing found
            have fewer := unknownOf_enter mem known
            omega
  | succ fuel inductionHypothesis =>
      by_cases known : key ∈ state.known
      · rw [visitKey_of_known _ known, visitKey_of_known _ known]
      · cases found : web.find? key with
        | none => rw [visitKey_of_missing _ found, visitKey_of_missing _ found]
        | some thing =>
            obtain ⟨rfl, mem⟩ := spanned key thing found
            have fewer := unknownOf_enter mem known
            obtain ⟨fuel', rfl⟩ : ∃ less, fuel' = less + 1 := ⟨fuel' - 1, by omega⟩
            rw [visitKey_of_found _ known found, visitKey_of_found _ known found]
            refine visit_congr _ (fun later key grown => ?_) (List.Subset.refl _)
            have still := unknownOf_le keys grown
            exact inductionHypothesis (by omega) (by omega)

/-- Collecting goes the same way with all bounds above the number of keys that lead to anything:
the bound on the depth is never come to. -/
theorem collect_of_enough (spanned : web.IsSpannedBy keys) (enough : keys.length ≤ fuel)
    (enough' : keys.length ≤ fuel') (listed : List ν) (leads : List κ) :
    web.collect (fuel + 1) listed leads = web.collect (fuel' + 1) listed leads := by
  have sameKeys : ∀ more more', keys.length ≤ more → keys.length ≤ more' →
      ∀ (state : Gathered κ ν) key, web.visitKey more state key = web.visitKey more' state key := by
    intro more more' enough enough' state key
    have few : unknownOf keys state ≤ keys.length := List.countP_le_length
    exact visitKey_of_enough spanned (Nat.le_trans few enough) (Nat.le_trans few enough')
  have sameThings : ∀ (state : Gathered κ ν) thing,
      web.visit (fuel + 1) thing state = web.visit (fuel' + 1) thing state :=
    fun state thing => visit_congr [] (fun state key _ => sameKeys _ _ enough enough' state key)
      (List.nil_subset _)
  have sameVisits : web.visitKey (fuel + 1) = web.visitKey (fuel' + 1) := by
    funext state key
    exact sameKeys _ _ (Nat.le_succ_of_le enough) (Nat.le_succ_of_le enough') state key
  simp only [collect, sameThings, sameVisits]

/-- With a bound that is not below the number of unknown keys, visiting a key makes it known, if it
leads to anything, and settles everything on the way. -/
theorem visitKey_settles (spanned : web.IsSpannedBy keys) (enough : unknownOf keys start ≤ fuel)
    (visited : web.visitKey fuel start key = .ok finish) :
    web.Settles start finish ∧ ((web.find? key).isSome → key ∈ finish.known) := by
  induction fuel generalizing start finish key with
  | zero =>
      by_cases known : key ∈ start.known
      · cases (visitKey_of_known 0 known).symm.trans visited
        exact ⟨.refl web start, fun _ => known⟩
      · cases found : web.find? key with
        | none =>
            cases (visitKey_of_missing 0 found).symm.trans visited
            exact ⟨.refl web start, by simp⟩
        | some thing =>
            obtain ⟨rfl, mem⟩ := spanned key thing found
            have fewer := unknownOf_enter mem known
            omega
  | succ fuel inductionHypothesis =>
      by_cases known : key ∈ start.known
      · cases (visitKey_of_known (fuel + 1) known).symm.trans visited
        exact ⟨.refl web start, fun _ => known⟩
      · cases found : web.find? key with
        | none =>
            cases (visitKey_of_missing (fuel + 1) found).symm.trans visited
            exact ⟨.refl web start, by simp⟩
        | some thing =>
            obtain ⟨rfl, mem⟩ := spanned key thing found
            rw [visitKey_of_found _ known found] at visited
            have fewer := unknownOf_enter mem known
            have each (state : Gathered κ ν) (key : κ) (next : Gathered κ ν)
                (grown : (web.enter start thing).known ⊆ state.known)
                (visited : web.visitKey fuel state key = .ok next) :
                web.Settles state next ∧ ((web.find? key).isSome → key ∈ next.known) := by
              have still := unknownOf_le keys grown
              exact inductionHypothesis (by omega) visited
            obtain ⟨settles, isKnown, -⟩ := visit_settles each (List.Subset.refl _) visited
            exact ⟨settles, fun _ => isKnown⟩

/-- What is known is listed or collected. -/
theorem known_of_settled {listed : List ν}
    (visited : listed.foldlM (fun state thing => web.visit fuel thing state)
      ⟨listed.map web.key, []⟩ = .ok start) {leads : List κ}
    (walked : leads.foldlM (web.visitKey fuel) start = .ok finish) :
    ∀ key ∈ finish.known, key ∈ listed.map web.key ∨ key ∈ finish.collected.map web.key := by
  have enters (state : Gathered κ ν) (thing : ν)
      (before : ∀ key ∈ state.known, key ∈ listed.map web.key ∨
        key ∈ state.collected.map web.key) :
      ∀ key ∈ (web.enter state thing).known, key ∈ listed.map web.key ∨
        key ∈ (web.enter state thing).collected.map web.key := by
    refine List.forall_mem_cons.mpr ⟨.inr (List.mem_cons_self ..), fun key mem => ?_⟩
    exact (before key mem).imp_right (List.mem_cons_of_mem _)
  have keeps {thing : ν} {state next : Gathered κ ν}
      (before : ∀ key ∈ state.known, key ∈ listed.map web.key ∨ key ∈ state.collected.map web.key)
      (visited : web.visit fuel thing state = .ok next) :
      ∀ key ∈ next.known, key ∈ listed.map web.key ∨ key ∈ next.collected.map web.key :=
    keeps_of_visit (fun state => ∀ key ∈ state.known, key ∈ listed.map web.key ∨
      key ∈ state.collected.map web.key) (fun _ => True)
      (fun state thing _ => enters state thing) (fun _ _ _ => trivial) trivial before visited
  refine foldlM_keeps (fun state => ∀ key ∈ state.known, key ∈ listed.map web.key ∨
    key ∈ state.collected.map web.key) ?_ ?_ walked
  · intro key _ state next before stepped
    exact keeps_of_visitKey (fun state => ∀ key ∈ state.known, key ∈ listed.map web.key ∨
      key ∈ state.collected.map web.key) before (fun thing _ => keeps before) stepped
  · refine foldlM_keeps (fun state => ∀ key ∈ state.known, key ∈ listed.map web.key ∨
      key ∈ state.collected.map web.key) ?_ (fun key mem => .inl mem) visited
    intro thing _ state next before stepped
    exact keeps before stepped

/-- What is collected holds what is listed and whatever can be found from there, if the bound is not
below the number of keys that lead to anything. -/
theorem collect_settles (spanned : web.IsSpannedBy keys) (enough : keys.length ≤ fuel)
    {listed things : List ν} {leads : List κ}
    (collects : web.collect (fuel + 1) listed leads = .ok things) :
    listed ⊆ things ∧
      (∀ key ∈ leads, (web.find? key).isSome → key ∈ things.map web.key) ∧
      ∀ thing ∈ things, web.LeadsInto (things.map web.key) thing := by
  have few (state : Gathered κ ν) : unknownOf keys state ≤ fuel :=
    Nat.le_trans List.countP_le_length enough
  have each (more : Nat) (isMore : fuel ≤ more) (state : Gathered κ ν) (key : κ)
      (next : Gathered κ ν) (_ : [] ⊆ state.known)
      (visited : web.visitKey more state key = .ok next) :=
    visitKey_settles spanned (Nat.le_trans (few state) isMore) visited
  obtain ⟨first, visited, rest⟩ := bind_eq_ok_iff.mp collects
  obtain ⟨last, walked, ended⟩ := bind_eq_ok_iff.mp rest
  obtain rfl := pure_eq_ok_iff.mp ended
  obtain ⟨earlier, areCollected⟩ := foldlM_settles
    (fun thing state => thing ∈ state.collected)
    (fun _ _ _ later mem => later.collected mem)
    (fun state thing next _ stepped => by
      obtain ⟨settles, -, mem⟩ :=
        visit_settles (each fuel (Nat.le_refl _)) (List.nil_subset _) stepped
      exact ⟨settles, mem⟩) (List.nil_subset _) visited
  obtain ⟨later, areKnown⟩ := foldlM_visitKey_settles (each (fuel + 1) (Nat.le_succ _))
    (List.nil_subset _) walked
  have listedCollected : listed ⊆ last.collected :=
    fun thing mem => later.collected (areCollected thing mem)
  have knownCollected : ∀ key ∈ last.known, key ∈ last.collected.reverse.map web.key := by
    intro key mem
    rw [List.map_reverse, List.mem_reverse]
    exact (known_of_settled visited walked key mem).elim
      (fun isListed => List.map_subset _ listedCollected isListed) id
  refine ⟨fun thing mem => List.mem_reverse.mpr (listedCollected mem),
    fun key mem isFound => knownCollected key (areKnown key mem isFound),
    fun thing mem keys stage key keyMem isFound => ?_⟩
  rcases (earlier.trans later).entered thing (List.mem_reverse.mp mem) with before | settled
  · exact absurd before List.not_mem_nil
  · exact knownCollected key (settled keys stage key keyMem isFound)

end Walks

/-- How a web is the image of another one that has more keys. A key of the image stands in the
place of one key, and the others that have the same image lead nowhere. -/
structure Image {κ' ν' : Type} (web : Web ε κ ν) (image : Web ε κ' ν') where
  ofKey : κ → κ'
  ofThing : ν → ν'
  /-- The key in whose place a key of the image stands. -/
  place : κ' → κ
  /-- The keys of the image that wait for their turn. -/
  listed : List κ'
  key_ofThing : ∀ thing, image.key (ofThing thing) = ofKey (web.key thing)
  stages_ofThing : ∀ thing,
    image.stages (ofThing thing) = (web.stages thing).map (Except.map (List.map ofKey))
  find?_ofKey : ∀ key, place (ofKey key) = key →
    image.find? (ofKey key) = (web.find? key).map ofThing

namespace Image

variable {κ' ν' : Type} {web : Web ε κ ν} {image : Web ε κ' ν'} (imaging : web.Image image)

/-- A key is in its place, or it leads nowhere and its image waits for its turn. -/
def IsIdleOrPlaced (key : κ) : Prop :=
  imaging.place (imaging.ofKey key) = key ∨
    (web.find? key = none ∧ imaging.ofKey key ∈ imaging.listed)

/-- A thing whose key is in its place, and all keys that it leads to are so or lead nowhere. -/
structure IsSound (thing : ν) : Prop where
  placed : imaging.place (imaging.ofKey (web.key thing)) = web.key thing
  leads : ∀ keys, .ok keys ∈ web.stages thing → ∀ key ∈ keys, imaging.IsIdleOrPlaced key

/-- All that a key in its place leads to is sound. -/
def FindsSound : Prop :=
  ∀ key thing, imaging.place (imaging.ofKey key) = key → web.find? key = some thing →
    imaging.IsSound thing

/-- A state and its image, where all that is known is in its place. -/
structure Pictures (state : Gathered κ ν) (state' : Gathered κ' ν') : Prop where
  known : state'.known = state.known.map imaging.ofKey
  collected : state'.collected = state.collected.map imaging.ofThing
  placed : ∀ key ∈ state.known, imaging.place (imaging.ofKey key) = key
  sound : ∀ thing ∈ state.collected, imaging.IsSound thing
  listed : imaging.listed ⊆ state'.known

variable {imaging} {state : Gathered κ ν} {state' : Gathered κ' ν'}

/-- Entering a thing and its image. -/
theorem Pictures.enter (pictures : imaging.Pictures state state') {thing : ν}
    (sound : imaging.IsSound thing) :
    imaging.Pictures (web.enter state thing) (image.enter state' (imaging.ofThing thing)) where
  known := congrArg₂ List.cons (imaging.key_ofThing thing) pictures.known
  collected := congrArg (List.cons _) pictures.collected
  placed := List.forall_mem_cons.mpr ⟨sound.placed, pictures.placed⟩
  sound := List.forall_mem_cons.mpr ⟨sound, pictures.sound⟩
  listed := List.subset_cons_of_subset _ pictures.listed

/-- A key in its place is known exactly if its image is. -/
theorem Pictures.mem_known_iff (pictures : imaging.Pictures state state') {key : κ}
    (placed : imaging.place (imaging.ofKey key) = key) :
    imaging.ofKey key ∈ state'.known ↔ key ∈ state.known := by
  rw [pictures.known]
  constructor
  · intro mem
    obtain ⟨other, otherMem, sameImage⟩ := List.mem_map.mp mem
    rwa [← placed, ← sameImage, pictures.placed other otherMem]
  · exact List.mem_map_of_mem

variable [BEq κ] [BEq κ'] {fuel : Nat}

/-- Visiting keys goes as visiting their images does, if visiting one key does. -/
theorem foldlM_visitKey {keys : List κ}
    (each : ∀ (state : Gathered κ ν) (state' : Gathered κ' ν') key, key ∈ keys →
      imaging.Pictures state state' → Parallel Eq imaging.Pictures (web.visitKey fuel state key)
        (image.visitKey fuel state' (imaging.ofKey key)))
    (pictures : imaging.Pictures state state') :
    Parallel Eq imaging.Pictures (keys.foldlM (web.visitKey fuel) state)
      ((keys.map imaging.ofKey).foldlM (image.visitKey fuel) state') := by
  have beside : List.Forall₂ (fun key key' => key ∈ keys ∧ key' = imaging.ofKey key) keys
      (keys.map imaging.ofKey) :=
    List.forall₂_map_right_iff.mpr (List.forall₂_same.mpr fun key mem => ⟨mem, rfl⟩)
  refine Parallel.foldlM beside ?_ pictures
  rintro key _ ⟨mem, rfl⟩ state state' pictures
  exact each state state' key mem pictures

variable [LawfulBEq κ] [LawfulBEq κ']

/-- Visiting a key goes as visiting its image does, if visiting things does. -/
theorem Pictures.visitKey (pictures : imaging.Pictures state state')
    (found : imaging.FindsSound)
    (visits : ∀ thing, imaging.IsSound thing → Parallel Eq imaging.Pictures
      (web.visit fuel thing state) (image.visit fuel (imaging.ofThing thing) state'))
    {key : κ} (leads : imaging.IsIdleOrPlaced key) :
    Parallel Eq imaging.Pictures (web.visitKey fuel state key)
      (image.visitKey fuel state' (imaging.ofKey key)) := by
  rcases leads with placed | ⟨idle, isListed⟩
  · by_cases known : key ∈ state.known
    · rw [visitKey_of_known _ known,
        visitKey_of_known _ ((pictures.mem_known_iff placed).mpr known)]
      exact .ok pictures
    · have unknown : imaging.ofKey key ∉ state'.known :=
        fun mem => known ((pictures.mem_known_iff placed).mp mem)
      have isFound := imaging.find?_ofKey key placed
      cases isThing : web.find? key with
      | none =>
          rw [isThing] at isFound
          rw [visitKey_of_missing _ isThing, visitKey_of_missing _ isFound]
          exact .ok pictures
      | some thing =>
          rw [isThing] at isFound
          rw [visitKey_of_found _ known isThing, visitKey_of_found _ unknown isFound]
          exact visits thing (found key thing placed isThing)
  · rw [visitKey_of_missing _ idle, visitKey_of_known _ (pictures.listed isListed)]
    exact .ok pictures

/-- Visiting a thing goes as visiting its image does, if everything is sound that may be led to. -/
theorem visit (found : imaging.FindsSound) (fuel : Nat) {thing : ν} (sound : imaging.IsSound thing)
    (pictures : imaging.Pictures state state') :
    Parallel Eq imaging.Pictures (web.visit fuel thing state)
      (image.visit fuel (imaging.ofThing thing) state') := by
  induction fuel generalizing thing state state' with
  | zero => exact .ok pictures
  | succ fuel inductionHypothesis =>
      rw [visit_succ, visit_succ, imaging.stages_ofThing]
      have beside : List.Forall₂ (fun stage stage' => stage ∈ web.stages thing ∧
          stage' = stage.map (List.map imaging.ofKey)) (web.stages thing)
          ((web.stages thing).map (Except.map (List.map imaging.ofKey))) :=
        List.forall₂_map_right_iff.mpr (List.forall₂_same.mpr fun stage mem => ⟨mem, rfl⟩)
      refine Parallel.foldlM beside ?_ (pictures.enter sound)
      rintro stage _ ⟨mem, rfl⟩ state state' pictures
      cases stage with
      | error fault => exact .error rfl
      | ok keys =>
          refine foldlM_visitKey (fun state state' key keyMem pictures => ?_) pictures
          exact pictures.visitKey found
            (fun thing sound => inductionHypothesis sound pictures)
            (sound.leads keys mem key keyMem)

/-- Collecting in a web goes as collecting in its image does, and collects sound things only, if
everything is sound that is listed or may be led to. -/
theorem collect (found : imaging.FindsSound) (fuel : Nat) {things : List ν} {keys : List κ}
    (sound : ∀ thing ∈ things, imaging.IsSound thing)
    (leads : ∀ key ∈ keys, imaging.IsIdleOrPlaced key)
    (listed : imaging.listed = things.map fun thing => imaging.ofKey (web.key thing)) :
    Parallel Eq (fun collected collected' => collected' = collected.map imaging.ofThing ∧
        ∀ thing ∈ collected, imaging.IsSound thing) (web.collect fuel things keys)
      (image.collect fuel (things.map imaging.ofThing) (keys.map imaging.ofKey)) := by
  have sameListed : (things.map imaging.ofThing).map image.key = imaging.listed := by
    rw [listed, List.map_map]
    exact List.map_congr_left fun thing _ => imaging.key_ofThing thing
  have start : imaging.Pictures ⟨things.map web.key, []⟩
      ⟨(things.map imaging.ofThing).map image.key, []⟩ := {
    known := by rw [sameListed, listed, List.map_map]; rfl
    collected := rfl
    placed := List.forall_mem_map.mpr fun thing mem => (sound thing mem).placed
    sound := List.forall_mem_nil _
    listed := sameListed ▸ List.Subset.refl _ }
  have beside : List.Forall₂ (fun thing thing' => thing ∈ things ∧ thing' = imaging.ofThing thing)
      things (things.map imaging.ofThing) :=
    List.forall₂_map_right_iff.mpr (List.forall₂_same.mpr fun thing mem => ⟨mem, rfl⟩)
  refine (Parallel.foldlM beside ?_ start).bind fun first first' pictures => ?_
  · rintro thing _ ⟨mem, rfl⟩ state state' pictures
    exact visit found fuel (sound thing mem) pictures
  · refine (foldlM_visitKey (fun state state' key mem pictures => ?_) pictures).bind
      fun all all' pictures => .ok ⟨?_, fun thing mem => ?_⟩
    · exact pictures.visitKey found (fun thing sound => visit found fuel sound pictures)
        (leads key mem)
    · rw [pictures.collected, List.map_reverse]
    · exact pictures.sound thing (List.mem_reverse.mp mem)

end Image

end SchemaOrder.Schema.Web
