import SchemaOrder.Proofs.Outcome

/-!
# Runs that match

Two runs match when they fail together and otherwise give related results: what they fail with is
left open, since a run that takes its things in another order may stop at another one of them.
`Matches.mapM_anyOrder` is the reason for the relation. Computing along a list and along a list of
the same things in another order matches, and the results are the same but for that order.
-/

namespace SchemaOrder.Outcome

variable {ε ε' α β γ δ : Type}

/-- Two computations that fail together or give related results. -/
inductive Matches (related : α → β → Prop) : Except ε α → Except ε' β → Prop where
  | ok {first : α} {second : β} (holds : related first second) :
      Matches related (.ok first) (.ok second)
  | error (fault : ε) (fault' : ε') : Matches related (.error fault) (.error fault')

namespace Matches

variable {related : α → β → Prop} {left : Except ε α} {right : Except ε' β}

/-- A computation matches itself. -/
theorem refl (computation : Except ε α) : Matches Eq computation computation := by
  cases computation with
  | ok result => exact .ok rfl
  | error fault => exact .error fault fault

/-- Computations with the same result match. -/
theorem of_sameResult {left : Except ε α} {right : Except ε' α} (same : SameResult left right) :
    Matches Eq left right := by
  cases left with
  | error fault => cases right with
    | error fault' => exact .error fault fault'
    | ok result => cases same
  | ok result => cases right with
    | error fault => cases same
    | ok other => exact .ok (Option.some.inj same)

/-- Results that are related are related in every weaker way. -/
theorem imp {weaker : α → β → Prop} (matched : Matches related left right)
    (implies : ∀ first second, related first second → weaker first second) :
    Matches weaker left right := by
  cases matched with
  | ok holds => exact .ok (implies _ _ holds)
  | error fault fault' => exact .error fault fault'

/-- Runs match from either side. -/
theorem symm (matched : Matches related left right) :
    Matches (fun second first => related first second) right left := by
  cases matched with
  | ok holds => exact .ok holds
  | error fault fault' => exact .error fault' fault

/-- Runs that match a third one on the way match. -/
theorem trans {middle : Except ε β} {right : Except ε' γ} {related' : β → γ → Prop}
    {both : α → γ → Prop} (earlier : Matches related left middle)
    (later : Matches related' middle right)
    (compose : ∀ first second third, related first second → related' second third →
      both first third) : Matches both left right := by
  cases earlier with
  | ok first => cases later with
    | ok second => exact .ok (compose _ _ _ first second)
  | error fault => cases later with
    | error _ fault' => exact .error fault fault'

/-- Matching runs succeed together. -/
theorem exists_ok_iff (matched : Matches related left right) :
    (∃ result, left = .ok result) ↔ ∃ result, right = .ok result := by
  cases matched with
  | ok holds => exact ⟨fun _ => ⟨_, rfl⟩, fun _ => ⟨_, rfl⟩⟩
  | error fault fault' => exact ⟨nofun, nofun⟩

/-- The results of matching runs are related. -/
theorem of_ok (matched : Matches related left right) {first : α} {second : β}
    (leftGives : left = .ok first) (rightGives : right = .ok second) : related first second := by
  subst leftGives rightGives
  cases matched with
  | ok holds => exact holds

/-- Where runs match, what follows may start from related results. -/
theorem bind {related' : γ → δ → Prop} {leftNext : α → Except ε γ} {rightNext : β → Except ε' δ}
    (matched : Matches related left right)
    (next : ∀ first second, related first second →
      Matches related' (leftNext first) (rightNext second)) :
    Matches related' (left >>= leftNext) (right >>= rightNext) := by
  cases matched with
  | ok holds => exact next _ _ holds
  | error fault fault' => exact .error fault fault'

/-- Functions of the results of matching runs match. -/
theorem map {related' : γ → δ → Prop} {leftChange : α → γ} {rightChange : β → δ}
    (matched : Matches related left right)
    (change : ∀ first second, related first second →
      related' (leftChange first) (rightChange second)) :
    Matches related' (left.map leftChange) (right.map rightChange) := by
  cases matched with
  | ok holds => exact .ok (change _ _ holds)
  | error fault fault' => exact .error fault fault'

/-- Runs of which functions of the results match do so themselves. -/
theorem of_map {related' : γ → δ → Prop} {leftChange : α → γ} {rightChange : β → δ}
    (matched : Matches related' (left.map leftChange) (right.map rightChange)) :
    Matches (fun first second => related' (leftChange first) (rightChange second)) left right := by
  cases left with
  | error fault => cases right with
    | error fault' => exact .error fault fault'
    | ok result => cases matched
  | ok result => cases right with
    | error fault => cases matched
    | ok other => cases matched with
      | ok holds => exact .ok holds

/-- What a failure is called does not matter. -/
theorem mapError {ε₁ ε₂ : Type} (matched : Matches related left right) (rename : ε → ε₁)
    (rename' : ε' → ε₂) : Matches related (left.mapError rename) (right.mapError rename') := by
  cases matched with
  | ok holds => exact .ok holds
  | error fault fault' => exact .error (rename fault) (rename' fault')

/-- Lists whose things match one by one match. -/
theorem mapM {related' : γ → δ → Prop} {leftCompute : α → Except ε γ}
    {rightCompute : β → Except ε' δ} {lefts : List α} {rights : List β}
    (each : List.Forall₂ (fun left right =>
      Matches related' (leftCompute left) (rightCompute right)) lefts rights) :
    Matches (List.Forall₂ related') (lefts.mapM leftCompute) (rights.mapM rightCompute) := by
  induction each with
  | nil => exact .ok .nil
  | cons head _ inductionHypothesis =>
      rw [List.mapM_cons, List.mapM_cons]
      exact head.bind fun _ _ first =>
        inductionHypothesis.bind fun _ _ rest => .ok (.cons first rest)

/-- Computing along a list and along the same things in another order fails together, and the
results are the same in that order. -/
theorem mapM_perm {compute : α → Except ε γ} {things things' : List α}
    (perm : things.Perm things') :
    Matches List.Perm (things.mapM compute) (things'.mapM compute) := by
  induction perm with
  | nil => exact .ok .nil
  | cons thing _ inductionHypothesis =>
      rw [List.mapM_cons, List.mapM_cons]
      refine (refl (compute thing)).bind ?_
      rintro first _ rfl
      exact inductionHypothesis.bind fun _ _ rest => .ok (rest.cons first)
  | swap thing other rest =>
      simp only [List.mapM_cons]
      cases compute thing with
      | error fault =>
          cases compute other with
          | error fault' => exact .error fault' fault
          | ok second => exact .error fault fault
      | ok first =>
          cases compute other with
          | error fault' => exact .error fault' fault'
          | ok second =>
              cases rest.mapM compute with
              | error fault => exact .error fault fault
              | ok results => exact .ok (.swap first second results)
  | trans _ _ earlier later => exact earlier.trans later fun _ _ _ => .trans

/-- Computing along lists whose things match but for their order matches, and so do the results. -/
theorem mapM_anyOrder {agrees : α → β → Prop} {related' : γ → δ → Prop}
    {leftCompute : α → Except ε γ} {rightCompute : β → Except ε' δ} {lefts : List α}
    {rights : List β}
    (each : ∀ left right, agrees left right →
      Matches related' (leftCompute left) (rightCompute right))
    (things : ∃ middle, lefts.Perm middle ∧ List.Forall₂ agrees middle rights) :
    Matches (fun lefts rights => ∃ middle, lefts.Perm middle ∧ List.Forall₂ related' middle rights)
      (lefts.mapM leftCompute) (rights.mapM rightCompute) := by
  obtain ⟨middle, perm, all⟩ := things
  refine (mapM_perm perm).trans (mapM (all.imp each)) fun _ results _ reordered same => ?_
  exact ⟨results, reordered, same⟩

/-- Computing along lists whose things match but for their order matches, and the results stand
beside the things that they are of. -/
theorem mapM_anyOrder_beside {agrees : α → β → Prop} {related' : γ → δ → Prop}
    {leftCompute : α → Except ε γ} {rightCompute : β → Except ε' δ} {lefts : List α}
    {rights : List β}
    (each : ∀ left right, agrees left right →
      Matches related' (leftCompute left) (rightCompute right))
    (things : ∃ middle, lefts.Perm middle ∧ List.Forall₂ agrees middle rights) :
    Matches (fun results results' => ∃ middle, (lefts.zip results).Perm middle ∧
        List.Forall₂ (fun left right => agrees left.1 right.1 ∧ related' left.2 right.2) middle
          (rights.zip results'))
      (lefts.mapM leftCompute) (rights.mapM rightCompute) := by
  have beside : Matches (fun pairs pairs' => ∃ middle, pairs.Perm middle ∧
      List.Forall₂ (fun left right => agrees left.1 right.1 ∧ related' left.2 right.2) middle
        pairs')
      (lefts.mapM fun left => (leftCompute left).map (left, ·))
      (rights.mapM fun right => (rightCompute right).map (right, ·)) :=
    mapM_anyOrder (fun left right agree =>
      (each left right agree).map fun _ _ holds => ⟨agree, holds⟩) things
  rw [mapM_beside, mapM_beside] at beside
  exact of_map beside

end Matches

end SchemaOrder.Outcome
