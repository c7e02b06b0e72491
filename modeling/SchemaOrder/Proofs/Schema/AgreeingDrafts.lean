import SchemaOrder.Proofs.Schema.Agreement
import SchemaOrder.Proofs.Schema.Assembly

/-!
# Assembling drafts that agree

Collecting looks at the names of types and at what these lead to, and at nothing else. Two
drafts whose listed types agree thing by thing are therefore collected in the same steps:
`Corresponds` relates the states of the two runs, one step of which keeps it, and
`collect_corresponds` says that the types that come out agree thing by thing as well.
-/

namespace SchemaOrder.Schema

variable {ε : Type}

/-- Fields that agree in order lead to the same names. -/
theorem fieldReferences_eq {lefts rights : List Field}
    (related : Arrangement.inOrder.Relates (Field.Agrees .mirrored) lefts rights) :
    TypeDraft.fieldReferences lefts = TypeDraft.fieldReferences rights := by
  apply Arrangement.Relates.flatMap_eq _ related
  intro left right agree
  have arguments := Arrangement.Relates.map_eq (fun argument => argument.type.base)
    agree.arguments fun _ _ agree => congrArg TypeReference.base agree.type
  rw [agree.type, arguments]

/-- Types that agree in order lead to the same names. -/
theorem NamedType.Agrees.references {left right : NamedType} (agree : left.Agrees .mirrored right) :
    left.references = right.references := by
  have body := agree.body
  unfold NamedType.references
  revert body
  generalize left.body = leftBody, right.body = rightBody
  intro body
  cases body with
  | scalar => rfl
  | enum => rfl
  | object sameInterfaces sameFields | interface sameInterfaces sameFields =>
      rw [Body.references, Body.references, fieldReferences_eq sameFields,
        Arrangement.Relates.inOrder_eq_iff_eq.mp sameInterfaces]
  | union sameMembers => exact Arrangement.Relates.inOrder_eq_iff_eq.mp sameMembers
  | inputObject sameFields =>
      exact sameFields.map_eq _ fun _ _ agree => congrArg TypeReference.base agree.type

/-- Two drafts of known types that agree. -/
def TypeDraft.Agrees (left right : TypeDraft ε) : Prop :=
  ∃ first second, left = .ofType first ∧ right = .ofType second ∧ first.Agrees .mirrored second

namespace TypeDraft.Agrees

variable {left right : TypeDraft ε}

/-- Drafts that agree have the same name. -/
theorem name (agree : left.Agrees right) : left.name = right.name := by
  obtain ⟨first, second, rfl, rfl, types⟩ := agree
  exact types.name

/-- The draft of a known type is known to be that of this type only. -/
theorem types {first second : NamedType}
    (agree : (ofType first : TypeDraft ε).Agrees (ofType second)) :
    first.Agrees .mirrored second := by
  obtain ⟨_, _, isFirst, isSecond, types⟩ := agree
  rw [ofType_injective isFirst, ofType_injective isSecond]
  exact types

end TypeDraft.Agrees

namespace Collected

/-- Two states in which the same names are known and types that agree are collected. -/
structure Corresponds (left right : Collected ε) : Prop where
  known : left.known = right.known
  collected : List.Forall₂ TypeDraft.Agrees left.collected right.collected

variable {left right : Collected ε} {find find' : Text → Option (TypeDraft ε)}

/-- Entering types that agree. -/
theorem Corresponds.enter (states : Corresponds left right) {first second : NamedType}
    (types : first.Agrees .mirrored second) :
    Corresponds (left.enter first) (right.enter second) where
  known := by rw [Collected.enter, Collected.enter, types.name, states.known]
  collected := .cons ⟨first, second, rfl, rfl, types⟩ states.collected

/-- If visiting one name keeps states corresponding, so does visiting types that agree. -/
theorem visit_corresponds {fuel : Nat}
    (each : ∀ name (left right : Collected ε), Corresponds left right →
      Outcome.Corresponds Corresponds (visitName fuel find left name)
        (visitName fuel find' right name))
    (states : Corresponds left right) {first second : TypeDraft ε} (drafts : first.Agrees second) :
    Outcome.Corresponds Corresponds (visit (fuel + 1) find first left)
      (visit (fuel + 1) find' second right) := by
  obtain ⟨first, second, rfl, rfl, types⟩ := drafts
  rw [visit_ofType, visit_ofType, types.references]
  exact Outcome.Corresponds.foldlM_same _ each (states.enter types)

/-- Where names lead to types that agree, visiting a name keeps states corresponding. -/
theorem visitName_corresponds (fuel : Nat)
    (finds : ∀ name, Option.Rel TypeDraft.Agrees (find name) (find' name)) (name : Text)
    (states : Corresponds left right) :
    Outcome.Corresponds Corresponds (visitName fuel find left name)
      (visitName fuel find' right name) := by
  induction fuel generalizing left right name with
  | zero =>
      have unchanged : ∀ (find : Text → Option (TypeDraft ε)) (state : Collected ε),
          visitName 0 find state name = .ok state := by
        intro find state
        unfold visitName Web.visitKey
        split
        · rfl
        · split <;> rfl
      rw [unchanged, unchanged]
      exact .ok states
  | succ fuel inductionHypothesis =>
      unfold visitName Web.visitKey
      rw [← states.known]
      split
      · exact .ok states
      · dsimp only [web]
        have found := finds name
        cases atLeft : find name <;> cases atRight : find' name <;>
          rw [atLeft, atRight] at found <;> cases found
        · exact .ok states
        · rename_i drafts
          exact visit_corresponds
            (fun name _ _ states => inductionHypothesis name states) states drafts

end Collected

namespace Draft

open Collected

variable {left right : Draft ε}

/-- Drafts whose listed types agree find types that agree. -/
theorem find?_agrees (types : List.Forall₂ TypeDraft.Agrees left.types right.types) (name : Text) :
    Option.Rel TypeDraft.Agrees (left.find? name) (right.find? name) := by
  have listed := Arrangement.Relates.find? (fun type => type.name = name) types
    fun _ _ agree => by rw [agree.name]
  unfold find?
  cases atLeft : left.types.find? (fun type => type.name = name) <;>
    cases atRight : right.types.find? (fun type => type.name = name) <;>
    rw [atLeft, atRight] at listed <;> cases listed
  · cases Standard.type? name with
    | none => exact .none
    | some type => exact .some ⟨type, type, rfl, rfl, .refl Value.Alike.same type⟩
  · rename_i agree
    exact .some agree

/-- Drafts whose listed types agree, and that lead to the same names themselves, collect types
that agree. -/
theorem collect_corresponds (types : List.Forall₂ TypeDraft.Agrees left.types right.types)
    (references : left.references = right.references) :
    Outcome.Corresponds (List.Forall₂ TypeDraft.Agrees) left.collect right.collect := by
  have finds := find?_agrees types
  have names : left.types.map TypeDraft.name = right.types.map TypeDraft.name :=
    Arrangement.Relates.map_eq _ types fun _ _ agree => agree.name
  have start : Corresponds (⟨left.types.map TypeDraft.name, []⟩ : Collected ε)
      ⟨right.types.map TypeDraft.name, []⟩ := ⟨names, .nil⟩
  have visits : ∀ fuel name (first second : Collected ε), Corresponds first second →
      Outcome.Corresponds Corresponds (visitName fuel left.find? first name)
        (visitName fuel right.find? second name) :=
    fun fuel name _ _ states => visitName_corresponds fuel finds name states
  unfold collect Web.collect
  rw [types.length_eq, references]
  have listed : Outcome.Corresponds Corresponds
      (left.types.foldlM (fun state type =>
        visit (right.types.length + Standard.types.length + 1) left.find? type state)
        ⟨left.types.map TypeDraft.name, []⟩)
      (right.types.foldlM (fun state type =>
        visit (right.types.length + Standard.types.length + 1) right.find? type state)
        ⟨right.types.map TypeDraft.name, []⟩) :=
    .foldlM types (fun _ _ drafts _ _ states => visit_corresponds (visits _) states drafts) start
  refine listed.bind fun leftListed rightListed states => ?_
  have all := Outcome.Corresponds.foldlM_same right.references
    (visits (right.types.length + Standard.types.length + 1)) states
  exact all.bind fun _ _ finished => .ok (List.forall₂_reverse_iff.mpr finished.collected)

end Draft

end SchemaOrder.Schema
