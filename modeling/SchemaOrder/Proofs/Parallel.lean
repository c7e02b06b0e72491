import Mathlib.Data.List.Forall2

/-!
# Runs in parallel

Two runs are parallel when they fail together, with faults that are related, and otherwise give
related results. Other than in `Matches` the faults are compared, so that both runs have to go the
same way up to the first fault.
-/

namespace SchemaOrder.Outcome

variable {ε ε' α β γ δ σ τ : Type}

/-- Two computations that fail with related faults or give related results. -/
inductive Parallel (faults : ε → ε' → Prop) (results : α → β → Prop) :
    Except ε α → Except ε' β → Prop where
  | ok {first : α} {second : β} (holds : results first second) :
      Parallel faults results (.ok first) (.ok second)
  | error {fault : ε} {fault' : ε'} (holds : faults fault fault') :
      Parallel faults results (.error fault) (.error fault')

namespace Parallel

variable {faults : ε → ε' → Prop} {results : α → β → Prop} {left : Except ε α}
  {right : Except ε' β}

/-- A computation is parallel to itself. -/
theorem refl {same : ε → ε → Prop} (reflexive : ∀ fault, same fault fault)
    (computation : Except ε α) : Parallel same Eq computation computation := by
  cases computation with
  | ok result => exact .ok rfl
  | error fault => exact .error (reflexive fault)

/-- Parallel runs end in the same way. -/
theorem outcome (parallel : Parallel faults results left right) :
    (∃ first second, left = .ok first ∧ right = .ok second ∧ results first second) ∨
      ∃ fault fault', left = .error fault ∧ right = .error fault' ∧ faults fault fault' := by
  cases parallel with
  | ok holds => exact .inl ⟨_, _, rfl, rfl, holds⟩
  | error holds => exact .inr ⟨_, _, rfl, rfl, holds⟩

/-- Results that are related are related in every weaker way. -/
theorem imp {weaker : α → β → Prop} (parallel : Parallel faults results left right)
    (implies : ∀ first second, results first second → weaker first second) :
    Parallel faults weaker left right := by
  cases parallel with
  | ok holds => exact .ok (implies _ _ holds)
  | error holds => exact .error holds

/-- What follows parallel runs may start from related results. -/
theorem bind {further : γ → δ → Prop} {leftNext : α → Except ε γ} {rightNext : β → Except ε' δ}
    (parallel : Parallel faults results left right)
    (next : ∀ first second, results first second →
      Parallel faults further (leftNext first) (rightNext second)) :
    Parallel faults further (left >>= leftNext) (right >>= rightNext) := by
  cases parallel with
  | ok holds => exact next _ _ holds
  | error holds => exact .error holds

/-- What follows parallel runs may start from one and the same result. -/
theorem bindSame {further : γ → δ → Prop} {right : Except ε' α} {leftNext : α → Except ε γ}
    {rightNext : α → Except ε' δ} (parallel : Parallel faults Eq left right)
    (next : ∀ result, Parallel faults further (leftNext result) (rightNext result)) :
    Parallel faults further (left >>= leftNext) (right >>= rightNext) := by
  refine parallel.bind ?_
  rintro result _ rfl
  exact next result

/-- Functions of the results of parallel runs. -/
theorem map {further : γ → δ → Prop} {leftChange : α → γ} {rightChange : β → δ}
    (parallel : Parallel faults results left right)
    (change : ∀ first second, results first second →
      further (leftChange first) (rightChange second)) :
    Parallel faults further (left.map leftChange) (right.map rightChange) := by
  cases parallel with
  | ok holds => exact .ok (change _ _ holds)
  | error holds => exact .error holds

/-- One function of one and the same result. -/
theorem mapSame {right : Except ε' α} (parallel : Parallel faults Eq left right)
    (change : α → γ) : Parallel faults Eq (left.map change) (right.map change) :=
  parallel.map fun _ _ same => congrArg change same

/-- Faults that are related may be called something else. -/
theorem mapError {ε₁ ε₂ : Type} {faults' : ε₁ → ε₂ → Prop} {rename : ε → ε₁} {rename' : ε' → ε₂}
    (parallel : Parallel faults results left right)
    (names : ∀ fault fault', faults fault fault' → faults' (rename fault) (rename' fault')) :
    Parallel faults' results (left.mapError rename) (right.mapError rename') := by
  cases parallel with
  | ok holds => exact .ok holds
  | error holds => exact .error (names _ _ holds)

/-- Runs with the same results, and with faults of which something is the same. -/
theorem mapError_eq {κ : Type} {ofFault : ε → κ} {ofFault' : ε' → κ} {right : Except ε' α}
    (parallel : Parallel (fun fault fault' => ofFault fault = ofFault' fault') Eq left right) :
    left.mapError ofFault = right.mapError ofFault' := by
  cases parallel with
  | ok same => exact congrArg Except.ok same
  | error same => exact congrArg Except.error same

/-- Runs that are told apart by neither are parallel. -/
theorem of_mapError_eq {κ : Type} {ofFault : ε → κ} {ofFault' : ε' → κ} {right : Except ε' α}
    (same : left.mapError ofFault = right.mapError ofFault') :
    Parallel (fun fault fault' => ofFault fault = ofFault' fault') Eq left right := by
  cases left with
  | ok result => cases right with
    | ok other => exact .ok (Except.ok.inj same)
    | error fault => cases same
  | error fault => cases right with
    | ok other => cases same
    | error fault' => exact .error (Except.error.inj same)

/-- Lists whose things are computed in parallel. -/
theorem mapM {further : γ → δ → Prop} {leftCompute : α → Except ε γ}
    {rightCompute : β → Except ε' δ} {lefts : List α} {rights : List β}
    (each : List.Forall₂ (fun left right =>
      Parallel faults further (leftCompute left) (rightCompute right)) lefts rights) :
    Parallel faults (List.Forall₂ further) (lefts.mapM leftCompute)
      (rights.mapM rightCompute) := by
  induction each with
  | nil => exact .ok .nil
  | cons head _ inductionHypothesis =>
      rw [List.mapM_cons, List.mapM_cons]
      exact head.bind fun _ _ first =>
        inductionHypothesis.bind fun _ _ others => .ok (.cons first others)

/-- A list and what becomes of its things are computed in parallel if the things are. -/
theorem mapM_map {leftCompute : α → Except ε γ} {rightCompute : β → Except ε' γ} {change : α → β}
    (each : ∀ thing, Parallel faults Eq (leftCompute thing) (rightCompute (change thing)))
    (things : List α) :
    Parallel faults Eq (things.mapM leftCompute) ((things.map change).mapM rightCompute) := by
  have beside : List.Forall₂ (fun left right =>
      Parallel faults Eq (leftCompute left) (rightCompute right)) things (things.map change) :=
    List.forall₂_map_right_iff.mpr (List.forall₂_same.mpr fun thing _ => each thing)
  refine (mapM beside).imp fun _ _ same => ?_
  rwa [List.forall₂_eq_eq_eq] at same

/-- One and the same list is computed in parallel if its things are. -/
theorem mapM_same {leftCompute : α → Except ε γ} {rightCompute : α → Except ε' γ}
    (each : ∀ thing, Parallel faults Eq (leftCompute thing) (rightCompute thing))
    (things : List α) :
    Parallel faults Eq (things.mapM leftCompute) (things.mapM rightCompute) := by
  have mapped : Parallel faults Eq (things.mapM leftCompute) ((things.map id).mapM rightCompute) :=
    mapM_map each things
  rwa [List.map_id] at mapped

/-- Steps along lists that keep states related. -/
theorem foldlM {states : σ → τ → Prop} {leftStep : σ → α → Except ε σ}
    {rightStep : τ → β → Except ε' τ} {lefts : List α} {rights : List β}
    {agrees : α → β → Prop} (things : List.Forall₂ agrees lefts rights)
    (step : ∀ left right, agrees left right → ∀ state state', states state state' →
      Parallel faults states (leftStep state left) (rightStep state' right))
    {start : σ} {start' : τ} (initially : states start start') :
    Parallel faults states (lefts.foldlM leftStep start) (rights.foldlM rightStep start') := by
  induction things generalizing start start' with
  | nil => exact .ok initially
  | cons head _ inductionHypothesis =>
      rw [List.foldlM_cons, List.foldlM_cons]
      exact (step _ _ head start start' initially).bind fun _ _ => inductionHypothesis

end Parallel

end SchemaOrder.Outcome
