import SchemaOrder.Proofs.Collections
import SchemaOrder.Proofs.Schema.Findings
import SchemaOrder.Proofs.Sorting.SortedValidity
import SchemaOrder.Proofs.Sorting.Untampered

/-!
# Looking at schemas

A step of a session that only looks at a schema can be left out without any other step
answering differently, unless it describes a schema that breaks rules and that nobody has
validated before: validation leaves its messages behind, and a sorted copy of a schema with
messages counts as valid. `Schema.Confirms` is what a harmless look can make of a schema,
`Confirms.run` says that one step keeps it from slot to slot, and `Confirms.answers` says so
of a whole session.
-/

namespace SchemaOrder

open Schema Outcome

namespace Schema

variable {seen unseen : Schema}

/-- A schema is another one, or that one after validation looked at it for the first time and
found nothing. -/
inductive Confirms : Schema → Schema → Prop where
  | same (schema : Schema) : Confirms schema schema
  | validated {schema : Schema} (unknown : schema.validation = none)
      (valid : schema.violations = []) : Confirms schema.validated schema

/-- A schema that validation has nothing to say about says so again. -/
theorem validationMessages_of_valid {schema : Schema} (unknown : schema.validation = none)
    (valid : schema.violations = []) : schema.validationMessages = [] := by
  unfold validationMessages
  rw [unknown, valid]
  rfl

/-- A schema after validation confirms the one before it, unless it is found to break rules. -/
theorem validated_confirms {schema : Schema}
    (valid : schema.validation = none → schema.violations = []) :
    schema.validated.Confirms schema := by
  cases unknown : schema.validation with
  | none => exact .validated unknown (valid unknown)
  | some messages =>
      have same : schema.validated = schema := by
        unfold Schema.validated validationMessages
        rw [unknown]
        simp only [← unknown]
      rw [same]
      exact .same schema

namespace Confirms

/-- Only findings differ, and validation says the same of both. -/
theorem exists_findings (confirms : seen.Confirms unseen) :
    ∃ findings, seen = unseen.withFindings findings ∧
      seen.validationMessages = unseen.validationMessages := by
  cases confirms with
  | same => exact ⟨seen.validation, rfl, rfl⟩
  | validated => exact ⟨some unseen.validationMessages, rfl, rfl⟩

/-- Apart from the findings both are the same. -/
theorem withFindings_none (confirms : seen.Confirms unseen) :
    seen.withFindings none = unseen.withFindings none := by
  cases confirms <;> rfl

/-- Validation makes the same of both. -/
theorem validated_eq (confirms : seen.Confirms unseen) : seen.validated = unseen.validated := by
  cases confirms <;> rfl

/-- Both are the same document. -/
theorem print_eq (confirms : seen.Confirms unseen) : seen.print = unseen.print := by
  obtain ⟨findings, rfl, -⟩ := confirms.exists_findings
  exact print_withFindings

/-- Both are written as the same text. -/
theorem documentText_eq (confirms : seen.Confirms unseen) :
    seen.documentText = unseen.documentText := by
  simp only [documentText, toDocument, confirms.print_eq]

/-- Both have the same fingerprint. -/
theorem digest_eq (confirms : seen.Confirms unseen) : seen.digest = unseen.digest := by
  simp only [digest, confirms.print_eq]

/-- Both have the same description. -/
theorem introspectionText_eq (confirms : seen.Confirms unseen) :
    seen.introspectionText = unseen.introspectionText := by
  obtain ⟨findings, rfl, sameMessages⟩ := confirms.exists_findings
  simp only [introspectionText, toIntrospection, introspection_withFindings sameMessages]

/-- Both are sorted, or neither is. -/
theorem isSortedBy_eq (confirms : seen.Confirms unseen) (collation : Collation)
    (comparison : Comparison) :
    seen.isSortedBy collation comparison = unseen.isSortedBy collation comparison := by
  obtain ⟨findings, rfl, -⟩ := confirms.exists_findings
  rfl

/-- The index has the same types. -/
theorem definedTypes_eq (confirms : seen.Confirms unseen) :
    seen.definedTypes = unseen.definedTypes := by
  obtain ⟨findings, rfl, -⟩ := confirms.exists_findings
  rfl

/-- Sorted copies are as close to each other again: a copy breaks rules only where the schema
does. -/
theorem sorted (confirms : seen.Confirms unseen) (intact : unseen.Intact) (order : NameOrder) :
    ∃ seenCopy copy, seen.sorted order = .ok seenCopy ∧ unseen.sorted order = .ok copy ∧
      seenCopy.Confirms copy := by
  obtain ⟨copy, sorts, -⟩ := intact.sorts order
  have copied : unseen.sorted order = .ok copy := mapError_eq_ok_iff.mpr sorts
  cases confirms with
  | same => exact ⟨copy, copy, copied, copied, .same copy⟩
  | validated unknown valid =>
      have copyUnknown : copy.validation = none := by rw [validation_sort sorts, unknown]; rfl
      have copyValid := (intact.violations_sort_eq_nil_iff sorts).mpr valid
      have seenSorts : unseen.validated.sort order = .ok copy.validated := by
        have trusted := sort_withFindings (some unseen.validationMessages) order unseen
        rw [sorts] at trusted
        exact trusted.trans (congrArg Except.ok (by
          rw [Schema.validated, validationMessages_of_valid copyUnknown copyValid]
          rfl))
      exact ⟨copy.validated, copy, mapError_eq_ok_iff.mpr seenSorts, copied,
        .validated copyUnknown copyValid⟩

end Confirms

/-- A schema that breaks rules is not described, and neither is its sorted copy. But the copy
that is sorted after validation spoke counts as valid, although it breaks the same rules. -/
theorem Intact.sorted_after_validation {schema : Schema} (intact : schema.Intact)
    (unknown : schema.validation = none) (broken : schema.violations ≠ []) (order : NameOrder) :
    ∃ copy seenCopy, schema.sorted order = .ok copy ∧
      schema.validated.sorted order = .ok seenCopy ∧
      seenCopy.withFindings none = copy.withFindings none ∧
      (∃ messages, copy.introspection = .error (.invalid messages)) ∧
      ∀ messages, seenCopy.introspection ≠ .error (.invalid messages) := by
  obtain ⟨copy, sorts, -⟩ := intact.sorts order
  have copyUnknown : copy.validation = none := by rw [validation_sort sorts, unknown]; rfl
  have seenSorts : schema.validated.sort order = .ok (copy.withFindings (some [])) := by
    have trusted := sort_withFindings (some schema.validationMessages) order schema
    rwa [sorts] at trusted
  refine ⟨copy, _, mapError_eq_ok_iff.mpr sorts, mapError_eq_ok_iff.mpr seenSorts, rfl,
    ⟨copy.validationMessages, introspection_eq_invalid_iff.mpr ⟨rfl, ?_⟩⟩, ?_⟩
  · unfold validationMessages
    rw [copyUnknown]
    simpa [intact.violations_sort_eq_nil_iff sorts] using broken
  · intro messages fails
    obtain ⟨rfl, unsilent⟩ := introspection_eq_invalid_iff.mp fails
    exact unsilent rfl

end Schema

/-- Whether an activity puts nothing into any slot. -/
def Activity.looks : Activity → Bool
  | .check _ | .fingerprint _ | .writeDocument | .describe | .look | .resolve .. => true
  | .read _ | .sort _ | .rereadDocument | .rereadIntrospection | .remove _ | .addKindless _ => false

/-- Whether an activity changes an index by hand. -/
def Activity.tampers : Activity → Bool
  | .remove _ | .addKindless _ => true
  | _ => false

/-- What an answer shows: of a schema everything but what validation found. -/
def Answer.shown : Answer → Answer
  | .schema made => .schema (made.withFindings none)
  | other => other

namespace Session

/-- The answers to steps that are done one after the other. -/
def answers (volume : Volume) (collation : Collation) (session : Session) :
    List Step → List (Except StepFault Answer)
  | [] => []
  | step :: rest =>
    let (next, answer) := session.run volume collation step
    answer :: next.answers volume collation rest

/-- The session after steps that are done one after the other. -/
def after (volume : Volume) (collation : Collation) (session : Session) (steps : List Step) :
    Session :=
  steps.foldl (fun session step => (session.run volume collation step).1) session

/-- Every schema in a slot came about without tampering. -/
def Untampered (session : Session) : Prop :=
  ∀ slot ∈ session.slots, SchemaOrder.Untampered slot.2

/-- Each slot of a session holds a schema that confirms the one in the same slot of another. -/
def Confirms (seen unseen : Session) : Prop :=
  List.Forall₂ (fun left right => left.1 = right.1 ∧ left.2.Confirms right.2)
    seen.slots unseen.slots

variable {volume : Volume} {collation : Collation} {session seen unseen : Session} {step : Step}

/-- The first steps are answered as without the others, and the others as they are after the
first ones. -/
theorem answers_append (first second : List Step) :
    session.answers volume collation (first ++ second) =
      session.answers volume collation first ++
        (session.after volume collation first).answers volume collation second := by
  induction first generalizing session with
  | nil => rfl
  | cons step rest inductionHypothesis =>
      simp only [List.cons_append, answers, inductionHypothesis]
      rfl

/-- Every step has one answer. -/
@[simp] theorem length_answers (steps : List Step) :
    (session.answers volume collation steps).length = steps.length := by
  induction steps generalizing session with
  | nil => rfl
  | cons step rest inductionHypothesis => simp [answers, inductionHypothesis]

/-- Putting a schema back into the slot it was taken from changes nothing. -/
theorem put_schema? {slot : Text} {schema : Schema}
    (found : session.schema? slot = some schema) : session.put slot schema = session := by
  obtain ⟨⟨known, _⟩, isEntry, rfl⟩ := Option.map_eq_some_iff.mp found
  have named : known = slot := by simpa using List.find?_some isEntry
  subst named
  exact congrArg Session.mk (Named.insert_of_find? isEntry)

/-- Putting a schema into a slot changes no other slot. -/
theorem Untampered.put (untampered : session.Untampered) {schema : Schema}
    (good : SchemaOrder.Untampered schema) (slot : Text) :
    (session.put slot schema).Untampered := by
  intro other mem
  rcases Named.mem_insert mem with rfl | before
  · exact good
  · exact untampered other before

/-- What an untampered session has in a slot is untampered. -/
theorem Untampered.schema? (untampered : session.Untampered) {slot : Text} {schema : Schema}
    (found : session.schema? slot = some schema) : SchemaOrder.Untampered schema := by
  obtain ⟨entry, isEntry, rfl⟩ := Option.map_eq_some_iff.mp found
  exact untampered entry (List.mem_of_find?_eq_some isEntry)

/-- What an activity that does not tamper keeps and makes of an untampered schema is untampered. -/
theorem effect_untampered (volume : Volume) (collation : Collation) {schema : Schema}
    (untampered : SchemaOrder.Untampered schema) {activity : Activity}
    (honest : activity.tampers = false) :
    SchemaOrder.Untampered (effect volume collation schema activity).kept ∧
      ∀ made, (effect volume collation schema activity).made = some made →
        SchemaOrder.Untampered made := by
  cases activity with
  | read source => exact ⟨untampered, fun made isMade => .read (eq_ok_of_toOption isMade)⟩
  | sort comparison =>
      exact ⟨untampered, fun made isMade => .sort untampered (eq_ok_of_toOption isMade)⟩
  | rereadDocument =>
      refine ⟨untampered, fun made isMade => ?_⟩
      obtain ⟨text, written, given⟩ := bind_eq_ok_iff.mp (eq_ok_of_toOption isMade)
      exact .rereadDocument untampered written given
  | rereadIntrospection =>
      refine ⟨.validate untampered, fun made isMade => ?_⟩
      obtain ⟨text, described, given⟩ := bind_eq_ok_iff.mp (eq_ok_of_toOption isMade)
      exact .rereadIntrospection untampered described given
  | describe => exact ⟨.validate untampered, nofun⟩
  | check | fingerprint | writeDocument | look | resolve => exact ⟨untampered, nofun⟩
  | remove | addKindless => cases honest

/-- The session after a step had an effect on the schema it took. -/
def applied (session : Session) (step : Step) (effect : Effect) : Session :=
  match effect.made with
  | some made => (session.put step.source effect.kept).put step.target made
  | none => session.put step.source effect.kept

/-- A step that finds a schema has its effect on it. -/
theorem run_of_some {schema : Schema} (found : session.schema? step.source = some schema) :
    session.run volume collation step =
      (session.applied step (effect volume collation schema step.activity),
        (effect volume collation schema step.activity).answer.mapError .failed) := by
  obtain ⟨activity, source, target⟩ := step
  cases activity with
  | read text =>
      simp only [run, applied, effect, Effect.making, put_schema? found]
      cases text.read volume <;> rfl
  | sort | rereadDocument | rereadIntrospection | check | fingerprint | writeDocument | describe
  | look | remove | addKindless | resolve =>
      simp only [run, found]
      rfl

/-- A step that finds no schema does nothing, unless it reads one. -/
theorem run_of_none (empty : session.schema? step.source = none) :
    session.run volume collation step =
      match step.activity with
      | .read source =>
        ((source.read volume).toOption.elim session (session.put step.target),
          ((source.read volume).map .schema).mapError .failed)
      | _ => (session, .error .emptySlot) := by
  obtain ⟨activity, source, target⟩ := step
  cases activity with
  | read text =>
      simp only [run]
      cases text.read volume <;> rfl
  | sort | rereadDocument | rereadIntrospection | check | fingerprint | writeDocument | describe
  | look | remove | addKindless | resolve =>
      simp only [run, empty]

/-- A step that does not tamper leaves untampered schemas behind. -/
theorem Untampered.run (untampered : session.Untampered)
    (honest : step.activity.tampers = false) :
    (session.run volume collation step).1.Untampered := by
  cases found : session.schema? step.source with
  | some schema =>
      obtain ⟨kept, made⟩ := effect_untampered volume collation (untampered.schema? found) honest
      rw [run_of_some found]
      unfold applied
      split
      · exact (untampered.put kept _).put (made _ ‹_›) _
      · exact untampered.put kept _
  | none =>
      rw [run_of_none found]
      split
      · rename_i source _
        cases given : source.read volume with
        | error fault => exact untampered
        | ok schema => exact untampered.put (.read given) _
      · exact untampered

/-- Steps that do not tamper leave untampered schemas behind. -/
theorem Untampered.after {steps : List Step} (untampered : session.Untampered)
    (honest : ∀ step ∈ steps, step.activity.tampers = false) :
    (session.after volume collation steps).Untampered := by
  induction steps generalizing session with
  | nil => exact untampered
  | cons step rest inductionHypothesis =>
      exact inductionHypothesis (untampered.run (honest step (by simp)))
        fun step mem => honest step (by simp [mem])

/-- What an effect on a schema keeps, makes and shows, that on a schema that confirms it does. -/
structure Effect.Confirms (seen unseen : Effect) : Prop where
  kept : seen.kept.Confirms unseen.kept
  answer : seen.answer.map Answer.shown = unseen.answer.map Answer.shown
  made : Option.Rel Schema.Confirms seen.made unseen.made

namespace Effect.Confirms

variable {left right : Schema}

/-- A look at both schemas answers the same. -/
theorem looking (confirms : left.Confirms right) {first second : Except Fault Answer}
    (same : first = second) : (Effect.looking left first).Confirms (.looking right second) :=
  ⟨confirms, congrArg _ same, .none⟩

/-- The same schema is made of both. -/
theorem making (confirms : left.Confirms right) {first second : Except Fault Schema}
    (same : first = second) : (Effect.making left first).Confirms (.making right second) := by
  subst same
  refine ⟨confirms, rfl, ?_⟩
  cases first with
  | error fault => exact .none
  | ok made => exact .some (.same made)

/-- Schemas are made of both, and the first one confirms the second one. -/
theorem makingAlike (confirms : left.Confirms right) {first second : Except Fault Schema}
    {leftMade made : Schema} (firstMakes : first = .ok leftMade) (secondMakes : second = .ok made)
    (alike : leftMade.Confirms made) :
    (Effect.making left first).Confirms (.making right second) := by
  subst firstMakes secondMakes
  exact ⟨confirms, congrArg (Except.ok ∘ Answer.schema) alike.withFindings_none, .some alike⟩

end Effect.Confirms

end Session

/-- Every activity that does not tamper does the same with a schema and with one that confirms
it. -/
theorem Schema.Confirms.effect {left right : Schema} (confirms : left.Confirms right)
    (intact : right.Intact) (volume : Volume) (collation : Collation) {activity : Activity}
    (honest : activity.tampers = false) :
    (Session.effect volume collation left activity).Confirms
      (Session.effect volume collation right activity) := by
  cases activity with
  | read source => exact .making confirms rfl
  | sort comparison =>
      cases isOrder : comparison.nameOrder collation with
      | error fault => exact .making confirms (by simp only [sortedBy, isOrder]; rfl)
      | ok order =>
          obtain ⟨leftCopy, copy, leftSorted, sorted, copies⟩ := confirms.sorted intact order
          simp only [Session.effect, sortedBy, isOrder]
          exact .makingAlike confirms leftSorted sorted copies
  | rereadDocument =>
      refine .making confirms ?_
      rw [confirms.documentText_eq]
  | rereadIntrospection =>
      have same : left.validated.Confirms right.validated := confirms.validated_eq ▸ .same _
      refine .making same ?_
      rw [confirms.introspectionText_eq]
  | check comparison =>
      refine .looking confirms ?_
      rw [confirms.isSortedBy_eq]
  | fingerprint comparison =>
      refine .looking confirms ?_
      cases isOrder : comparison.nameOrder collation with
      | error fault => simp only [fingerprintBy, isOrder]; rfl
      | ok order =>
          obtain ⟨leftCopy, copy, leftSorted, sorted, copies⟩ := confirms.sorted intact order
          simp only [fingerprintBy, isOrder, bind, Except.bind, fingerprint, leftSorted, sorted,
            copies.digest_eq]
  | writeDocument =>
      refine .looking confirms ?_
      rw [confirms.documentText_eq]
  | describe =>
      have same : left.validated.Confirms right.validated := confirms.validated_eq ▸ .same _
      refine .looking same ?_
      rw [confirms.introspectionText_eq]
  | look => exact ⟨confirms, congrArg (Except.ok ∘ Answer.schema) confirms.withFindings_none, .none⟩
  | resolve reference isSorted =>
      refine .looking confirms ?_
      obtain ⟨leftCopy, copy, leftSorted, sorted, copies⟩ := confirms.sorted intact .byCodePoint
      simp only [Session.resolved, leftSorted, sorted, bind, Except.bind, pure, Except.pure,
        copies.definedTypes_eq]
  | remove | addKindless => cases honest

namespace Session

variable (volume : Volume) (collation : Collation) {session seen unseen : Session} {step : Step}

namespace Confirms

/-- A session confirms itself. -/
theorem refl (session : Session) : session.Confirms session :=
  List.forall₂_same.mpr fun slot _ => ⟨rfl, .same slot.2⟩

/-- Slots with the same name hold schemas of which one confirms the other. -/
theorem schema? (confirms : seen.Confirms unseen) (slot : Text) :
    Option.Rel Schema.Confirms (seen.schema? slot) (unseen.schema? slot) := by
  unfold Session.schema? Named.find?
  unfold Confirms at confirms
  generalize seen.slots = seenSlots, unseen.slots = slots at confirms ⊢
  induction confirms with
  | nil => exact .none
  | cons head _ inductionHypothesis =>
      obtain ⟨sameName, alike⟩ := head
      simp only [List.find?_cons, sameName]
      split
      · exact .some alike
      · exact inductionHypothesis

/-- Schemas of which one confirms the other are put into the same slot. -/
theorem put (confirms : seen.Confirms unseen) {left right : Schema} (alike : left.Confirms right)
    (slot : Text) : (seen.put slot left).Confirms (unseen.put slot right) := by
  unfold Confirms Session.put at *
  generalize seen.slots = seenSlots, unseen.slots = slots at confirms ⊢
  induction confirms with
  | nil => exact .cons ⟨rfl, alike⟩ .nil
  | cons head tail inductionHypothesis =>
      simp only [Named.insert, head.1]
      split
      · exact .cons ⟨rfl, alike⟩ tail
      · exact .cons head inductionHypothesis

/-- Effects of which one confirms the other are applied to the same slots. -/
theorem applied (confirms : seen.Confirms unseen) {left right : Effect}
    (alike : left.Confirms right) (step : Step) :
    (seen.applied step left).Confirms (unseen.applied step right) := by
  have kept := confirms.put alike.kept step.source
  have made := alike.made
  unfold Session.applied
  generalize left.made = leftMade, right.made = rightMade at made ⊢
  cases made with
  | none => exact kept
  | some made => exact kept.put made step.target

/-- A step that does not tamper shows the same answer in both sessions, and the sessions after
it are as close to each other as before. -/
theorem run (confirms : seen.Confirms unseen) (untampered : unseen.Untampered)
    (honest : step.activity.tampers = false) :
    (seen.run volume collation step).1.Confirms (unseen.run volume collation step).1 ∧
      (seen.run volume collation step).2.map Answer.shown =
        (unseen.run volume collation step).2.map Answer.shown := by
  have sources := confirms.schema? step.source
  cases atSeen : seen.schema? step.source <;> cases atUnseen : unseen.schema? step.source <;>
    rw [atSeen, atUnseen] at sources <;> cases sources
  · rw [run_of_none atSeen, run_of_none atUnseen]
    split
    · rename_i source _
      cases source.read volume with
      | error fault => exact ⟨confirms, rfl⟩
      | ok schema => exact ⟨confirms.put (.same schema) step.target, rfl⟩
    · exact ⟨confirms, rfl⟩
  · rename_i alike
    have effects := alike.effect (untampered.schema? atUnseen).intact volume collation honest
    rw [run_of_some atSeen, run_of_some atUnseen]
    refine ⟨confirms.applied effects step, ?_⟩
    rw [map_mapError, map_mapError, effects.answer]

/-- Steps that do not tamper show the same answers in both sessions. -/
theorem answers {steps : List Step} (confirms : seen.Confirms unseen)
    (untampered : unseen.Untampered) (honest : ∀ step ∈ steps, step.activity.tampers = false) :
    (seen.answers volume collation steps).map (Except.map Answer.shown) =
      (unseen.answers volume collation steps).map (Except.map Answer.shown) := by
  induction steps generalizing seen unseen with
  | nil => rfl
  | cons step rest inductionHypothesis =>
      have honestStep := honest step (by simp)
      obtain ⟨next, sameAnswer⟩ := confirms.run volume collation untampered honestStep
      simp only [Session.answers, List.map_cons, sameAnswer,
        inductionHypothesis next (untampered.run honestStep)
          fun step mem => honest step (by simp [mem])]

end Confirms

/-- A look makes no schema, and leaves the one it looks at as it was, unless it describes it. -/
theorem effect_of_looks (schema : Schema) {activity : Activity} (looks : activity.looks = true) :
    (effect volume collation schema activity).made = none ∧
      ((effect volume collation schema activity).kept = schema ∨
        activity = .describe ∧
          (effect volume collation schema activity).kept = schema.validated) := by
  cases activity with
  | check | fingerprint | writeDocument | look | resolve => exact ⟨rfl, .inl rfl⟩
  | describe => exact ⟨rfl, .inr ⟨rfl, rfl⟩⟩
  | read | sort | rereadDocument | rereadIntrospection | remove | addKindless => cases looks

/-- A look leaves every slot as it was, but for what validation finds in a schema that nobody
has validated before. -/
theorem confirms_of_looks (looks : step.activity.looks = true)
    (harmless : step.activity = .describe → ∀ schema, session.schema? step.source = some schema →
      schema.validation = none → schema.violations = []) :
    (session.run volume collation step).1.Confirms session := by
  cases found : session.schema? step.source with
  | none =>
      rw [run_of_none found]
      split
      · rename_i isRead
        rw [isRead] at looks
        cases looks
      · exact .refl session
  | some schema =>
      obtain ⟨nothing, kept⟩ := effect_of_looks volume collation schema looks
      have alike : (effect volume collation schema step.activity).kept.Confirms schema := by
        rcases kept with kept | ⟨describes, kept⟩
        · rw [kept]
          exact .same schema
        · rw [kept]
          exact validated_confirms (harmless describes schema found)
      have back := (Confirms.refl session).put alike step.source
      rw [put_schema? found] at back
      rwa [run_of_some found, applied, nothing]

/-- A step that works on the one slot there is. -/
def onlySlot (activity : Activity) : Step :=
  ⟨activity, "main", "main"⟩

/-- The session whose only slot holds a schema. -/
def holding (schema : Schema) : Session :=
  ⟨[("main", schema)]⟩

/-- The only slot has the schema in it. -/
theorem schema?_holding (schema : Schema) : (holding schema).schema? "main" = some schema := by
  simp [holding, Session.schema?, Named.find?]

/-- The first schema is read into the only slot. -/
theorem run_start_onlySlot {source : Source} {schema : Schema}
    (given : source.read volume = .ok schema) :
    start.run volume collation (onlySlot (.read source)) =
      (holding schema, .ok (.schema schema)) := by
  simp only [run, onlySlot, given]
  rfl

/-- A step in the only slot puts what it makes, or keeps, into that slot. -/
theorem run_holding (schema : Schema) (activity : Activity) :
    (holding schema).run volume collation (onlySlot activity) =
      (holding ((effect volume collation schema activity).made.getD
          (effect volume collation schema activity).kept),
        (effect volume collation schema activity).answer.mapError .failed) := by
  rw [run_of_some (by exact schema?_holding schema)]
  unfold applied
  cases made : (effect volume collation schema activity).made <;>
    simp [made, holding, onlySlot, Session.put, Named.insert]

/-- A step that only looks at a schema can be left out of a session in which nobody tampers with
an index: every other step shows the same answer. Only the first description of a schema that
breaks rules has to stay. -/
theorem answers_without_looking {before later : List Step} {looking : Step}
    (looks : looking.activity.looks = true)
    (honest : ∀ step ∈ before ++ later, step.activity.tampers = false)
    (harmless : looking.activity = .describe → ∀ schema,
      (start.after volume collation before).schema? looking.source = some schema →
        schema.validation = none → schema.violations = []) :
    ((start.answers volume collation (before ++ looking :: later)).eraseIdx before.length).map
        (Except.map Answer.shown) =
      (start.answers volume collation (before ++ later)).map (Except.map Answer.shown) := by
  have atStart : start.Untampered := nofun
  have untampered : (start.after volume collation before).Untampered :=
    atStart.after fun step mem => honest step (by simp [mem])
  have confirms := confirms_of_looks volume collation looks harmless
  have same := confirms.answers volume collation untampered
    fun step mem => honest step (List.mem_append_right before mem)
  rw [answers_append, answers_append, List.eraseIdx_append_of_length_le (by simp), length_answers]
  simp only [Nat.sub_self, answers, List.eraseIdx_zero, List.tail_cons, List.map_append, same]

/-- The starter document keeps all rules, so that describing its schema does not show. -/
theorem answers_without_describing_starter :
    ((start.answers noFiles AsciiCollation.key
        ([onlySlot (.read (.document starterDocument false))] ++ onlySlot .describe ::
          [onlySlot (.sort (.byOrder .byLength)), onlySlot .describe])).eraseIdx 1).map
        (Except.map Answer.shown) =
      (start.answers noFiles AsciiCollation.key
        ([onlySlot (.read (.document starterDocument false))] ++
          [onlySlot (.sort (.byOrder .byLength)), onlySlot .describe])).map
        (Except.map Answer.shown) := by
  have isRead : ((Source.document starterDocument false).read noFiles).toOption.any
      fun schema => schema.violations.isEmpty := by decide +kernel
  refine answers_without_looking noFiles AsciiCollation.key rfl ?_ ?_
  · decide
  · intro _ schema found _
    cases given : (Source.document starterDocument false).read noFiles with
    | error fault =>
        rw [given] at isRead
        cases isRead
    | ok known =>
        rw [given] at isRead
        simp only [after, List.foldl_cons, List.foldl_nil,
          run_start_onlySlot noFiles AsciiCollation.key given] at found
        obtain rfl := Option.some.inj ((schema?_holding known).symm.trans found)
        simpa [Except.toOption] using isRead

/-- A document with an object that does not provide the field its interface promises. -/
def impostorDocument : Text :=
  "type Query implements I { a: Int } interface I { b: Int }"

/-- The impostor is sorted and described. If somebody tries to describe it before, then it is
described afterwards, and otherwise it is not. -/
theorem describing_impostor_shows :
    ((start.answers noFiles AsciiCollation.key
        ([onlySlot (.read (.document impostorDocument false))] ++ onlySlot .describe ::
          [onlySlot (.sort (.byOrder .byCodePoint)), onlySlot .describe])).eraseIdx 1).map
        (Except.map Answer.shown) ≠
      (start.answers noFiles AsciiCollation.key
        ([onlySlot (.read (.document impostorDocument false))] ++
          [onlySlot (.sort (.byOrder .byCodePoint)), onlySlot .describe])).map
        (Except.map Answer.shown) := by
  have isRead : ((Source.document impostorDocument false).read noFiles).toOption.any
      fun schema => schema.validation.isNone && !schema.violations.isEmpty := by decide +kernel
  cases given : (Source.document impostorDocument false).read noFiles with
  | error fault =>
      rw [given] at isRead
      cases isRead
  | ok schema =>
      rw [given] at isRead
      obtain ⟨unknown, broken⟩ : schema.validation = none ∧ schema.violations ≠ [] := by
        simpa [Except.toOption] using isRead
      obtain ⟨copy, seenCopy, sorted, seenSorted, -, ⟨messages, fails⟩, succeeds⟩ :=
        (Source.read_intact given).sorted_after_validation unknown broken .byCodePoint
      have sorts : schema.sortedBy AsciiCollation.key (.byOrder .byCodePoint) = .ok copy := sorted
      have seenSorts : schema.validated.sortedBy AsciiCollation.key (.byOrder .byCodePoint) =
          .ok seenCopy := seenSorted
      simp only [List.cons_append, List.nil_append, answers,
        run_start_onlySlot noFiles AsciiCollation.key given, run_holding, effect, Effect.looking,
        Effect.making, sorts, seenSorts, Except.toOption, Option.getD_some, Option.getD_none,
        List.eraseIdx_cons_succ, List.eraseIdx_zero, List.tail_cons, List.map_cons, List.map_nil]
      intro same
      have last := (List.cons.inj (List.cons.inj (List.cons.inj same).2).2).1
      cases described : seenCopy.introspection with
      | error fault =>
          simp only [introspectionText, toIntrospection, described, fails] at last
          cases last
          exact succeeds messages described
      | ok result =>
          simp only [introspectionText, toIntrospection, described, fails] at last
          cases last

end Session

end SchemaOrder
