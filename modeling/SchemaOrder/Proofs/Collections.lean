import Mathlib.Data.List.Forall2
import Mathlib.Data.List.Nodup
import SchemaOrder.Named

/-!
# Collections without repeated names

A collection that things are put into one after the other holds each name once, holds no
thing that was not put in, and has a thing for every name of the things that were. Of several
things with one name the last one is there.
-/

namespace SchemaOrder

/-- A condition that fewer things meet, and one thing that meets the other does not, counts less. -/
theorem countP_lt_countP {α : Type} {stronger weaker : α → Bool} {things : List α}
    (implies : ∀ thing ∈ things, stronger thing = true → weaker thing = true) {thing : α}
    (mem : thing ∈ things) (fails : stronger thing = false) (holds : weaker thing = true) :
    things.countP stronger < things.countP weaker := by
  obtain ⟨before, after, rfl⟩ := List.append_of_mem mem
  have left : before.countP stronger ≤ before.countP weaker :=
    List.countP_mono_left fun other otherMem => implies other (by simp [otherMem])
  have right : after.countP stronger ≤ after.countP weaker :=
    List.countP_mono_left fun other otherMem => implies other (by simp [otherMem])
  rw [List.countP_append, List.countP_append, List.countP_cons, List.countP_cons, fails, holds]
  simp only [Bool.false_eq_true, if_false, if_true]
  omega

namespace Named

variable {α : Type} {name : α → Text} {thing other : α} {things known : List α}

/-- After one more thing is put in, everything was there before or is that thing. -/
theorem mem_insert (mem : other ∈ insert name thing known) : other = thing ∨ other ∈ known := by
  induction known with
  | nil => exact .inl (List.mem_singleton.mp mem)
  | cons head tail inductionHypothesis =>
      unfold insert at mem
      split at mem
      · rcases List.mem_cons.mp mem with same | later
        · exact .inl same
        · exact .inr (List.mem_cons_of_mem head later)
      · rcases List.mem_cons.mp mem with rfl | later
        · exact .inr (by simp)
        · exact (inductionHypothesis later).imp id (List.mem_cons_of_mem head)

/-- Putting in the thing that is found under its name changes nothing. -/
theorem insert_of_find? (found : find? name (name thing) known = some thing) :
    insert name thing known = known := by
  induction known with
  | nil => cases found
  | cons head tail inductionHypothesis =>
      unfold insert
      by_cases same : name head = name thing
      · simp only [find?, List.find?_cons, same, decide_true, Option.some.injEq] at found
        rw [if_pos same, found]
      · simp only [find?, List.find?_cons, same, decide_false] at found
        rw [if_neg same, inductionHypothesis found]

/-- A thing that is put in adds its name, if it is a new one, behind the others. -/
theorem map_name_insert : (insert name thing known).map name =
    if name thing ∈ known.map name then known.map name else known.map name ++ [name thing] := by
  induction known with
  | nil => simp [insert]
  | cons head tail inductionHypothesis =>
      unfold insert
      by_cases same : name head = name thing
      · simp [same]
      · have other : ¬ name thing = name head := fun equal => same equal.symm
        simp only [same, if_false, List.map_cons, inductionHypothesis, List.mem_cons, other,
          false_or]
        split <;> rfl

/-- Putting in a thing never makes a name stand twice. -/
theorem nodup_insert (unique : (known.map name).Nodup) :
    ((insert name thing known).map name).Nodup := by
  rw [map_name_insert]
  split
  · exact unique
  · rename_i fresh
    exact List.nodup_append.mpr ⟨unique, by simp, by simpa using fresh⟩

/-- The names are those from before and that of the thing that is put in. -/
theorem mem_map_name_insert {wanted : Text} :
    wanted ∈ (insert name thing known).map name ↔
      wanted = name thing ∨ wanted ∈ known.map name := by
  rw [map_name_insert]
  split
  · rename_i there
    constructor
    · exact .inr
    · rintro (rfl | before)
      · exact there
      · exact before
  · simp [or_comm]

/-- What a collection keeps while things are put in, it has at the end. -/
theorem ofList_induction (holds : List α → Prop) (initially : holds [])
    (keeps : ∀ thing ∈ things, ∀ known, holds known → holds (insert name thing known)) :
    holds (ofList name things) :=
  List.foldlRecOn things _ initially fun known before thing mem => keeps thing mem known before

/-- A collection holds only things that were put in. -/
theorem mem_of_mem_ofList (mem : thing ∈ ofList name things) : thing ∈ things := by
  have subset : ofList name things ⊆ things := by
    apply ofList_induction fun known => known ⊆ things
    · simp
    · intro new newMem known inThings thing mem
      rcases mem_insert mem with rfl | before
      · exact newMem
      · exact inThings before
  exact subset mem

/-- No name stands twice in a collection. -/
theorem nodup_ofList (name : α → Text) (things : List α) :
    ((ofList name things).map name).Nodup :=
  ofList_induction (fun known => (known.map name).Nodup) List.nodup_nil
    fun _ _ _ unique => nodup_insert unique

/-- A collection has the names of the things that were put in. -/
theorem mem_map_name_ofList {wanted : Text} :
    wanted ∈ (ofList name things).map name ↔ wanted ∈ things.map name := by
  have general : ∀ known : List α,
      wanted ∈ (things.foldl (fun known thing => insert name thing known) known).map name ↔
        wanted ∈ known.map name ∨ wanted ∈ things.map name := by
    induction things with
    | nil => simp
    | cons head tail inductionHypothesis =>
        intro known
        rw [List.foldl_cons, inductionHypothesis, mem_map_name_insert, List.map_cons,
          List.mem_cons, or_left_comm, or_assoc]
  have fromNothing := general []
  rwa [List.map_nil, List.mem_nil_iff, false_or] at fromNothing

/-- A name is found exactly when a thing has it. -/
theorem isSome_find?_iff {wanted : Text} :
    (find? name wanted things).isSome ↔ wanted ∈ things.map name := by
  simp [find?, List.find?_isSome]

/-- What is found under a name is there, and has the name. -/
theorem of_find?_eq_some {wanted : Text} (found : find? name wanted things = some thing) :
    thing ∈ things ∧ name thing = wanted :=
  ⟨List.mem_of_find?_eq_some found, by simpa using List.find?_some found⟩

/-- Where every name stands once, the thing with a name is the one that is found. -/
theorem find?_eq_some_iff {wanted : Text} (unique : (things.map name).Nodup) :
    find? name wanted things = some thing ↔ thing ∈ things ∧ name thing = wanted := by
  refine ⟨of_find?_eq_some, ?_⟩
  rintro ⟨mem, rfl⟩
  obtain ⟨found, isFound⟩ := Option.isSome_iff_exists.mp
    (isSome_find?_iff.mpr (List.mem_map_of_mem mem))
  obtain ⟨foundMem, sameName⟩ := of_find?_eq_some isFound
  rw [isFound, List.inj_on_of_nodup_map unique foundMem mem sameName]

/-- No name of several is found a second time exactly if all of them are different. -/
theorem repeated?_eq_none_iff {names : List Text} : repeated? names = none ↔ names.Nodup := by
  have general : ∀ seen : List Text, repeated?.go seen names = none ↔
      names.Nodup ∧ ∀ name ∈ names, name ∉ seen := by
    induction names with
    | nil => simp [repeated?.go]
    | cons head tail inductionHypothesis =>
        intro seen
        by_cases known : head ∈ seen
        · simp [repeated?.go, known]
        · rw [repeated?.go, List.contains_eq_mem, decide_eq_false known, if_neg Bool.false_ne_true,
            inductionHypothesis, List.nodup_cons, List.forall_mem_cons]
          constructor
          · rintro ⟨unique, fresh⟩
            exact ⟨⟨fun mem => fresh head mem (List.mem_cons_self ..), unique⟩, known,
              fun name mem seenBefore => fresh name mem (List.mem_cons_of_mem _ seenBefore)⟩
          · rintro ⟨⟨first, unique⟩, -, fresh⟩
            refine ⟨unique, fun name mem isKnown => ?_⟩
            rcases List.mem_cons.mp isKnown with rfl | seenBefore
            · exact first mem
            · exact fresh name mem seenBefore
  change repeated?.go [] names = none ↔ names.Nodup
  simpa only [List.not_mem_nil, not_false_eq_true, implies_true, and_true] using general []

/-- A thing with a new name goes to the end. -/
theorem insert_of_fresh (fresh : name thing ∉ known.map name) :
    insert name thing known = known ++ [thing] := by
  induction known with
  | nil => rfl
  | cons head tail inductionHypothesis =>
      rw [List.map_cons, List.mem_cons, not_or] at fresh
      rw [insert, if_neg (Ne.symm fresh.1), inductionHypothesis fresh.2, List.cons_append]

/-- Things whose names are all different are put in as they stand. -/
theorem ofList_of_nodup (unique : (things.map name).Nodup) : ofList name things = things := by
  have general : ∀ known : List α, ((known ++ things).map name).Nodup →
      things.foldl (fun known thing => insert name thing known) known = known ++ things := by
    induction things with
    | nil => simp
    | cons head tail inductionHypothesis =>
        intro known uniqueAll
        have fresh : name head ∉ known.map name := by
          rw [List.map_append, List.nodup_append] at uniqueAll
          exact fun mem => uniqueAll.2.2 _ mem _ (by simp) rfl
        rw [List.foldl_cons, insert_of_fresh fresh,
          inductionHypothesis (List.nodup_cons.mp unique).2 _ (by simpa using uniqueAll)]
        simp
  exact general [] unique

section Related

variable {β : Type} {name' : β → Text} {related : α → β → Prop}

/-- Putting related things of one name into related collections keeps them related. -/
theorem forall₂_insert (names : ∀ left right, related left right → name left = name' right)
    {left : α} {right : β} (holds : related left right) {lefts : List α} {rights : List β}
    (all : List.Forall₂ related lefts rights) :
    List.Forall₂ related (insert name left lefts) (insert name' right rights) := by
  induction all with
  | nil => exact .cons holds .nil
  | @cons first second others others' head tail inductionHypothesis =>
      have sameTest : name first = name left ↔ name' second = name' right := by
        rw [names _ _ head, names _ _ holds]
      rw [insert, insert]
      by_cases same : name first = name left
      · rw [if_pos same, if_pos (sameTest.mp same)]
        exact .cons holds tail
      · rw [if_neg same, if_neg (same ∘ sameTest.mpr)]
        exact .cons head inductionHypothesis

/-- Related things of the same names make related collections. -/
theorem forall₂_ofList (names : ∀ left right, related left right → name left = name' right)
    {lefts : List α} {rights : List β} (all : List.Forall₂ related lefts rights) :
    List.Forall₂ related (ofList name lefts) (ofList name' rights) := by
  have general : ∀ {known known'}, List.Forall₂ related known known' → List.Forall₂ related
      (lefts.foldl (fun known thing => insert name thing known) known)
      (rights.foldl (fun known thing => insert name' thing known) known') := by
    induction all with
    | nil => exact id
    | cons head _ inductionHypothesis =>
        exact fun before => inductionHypothesis (forall₂_insert names head before)
  exact general .nil

end Related

end Named

end SchemaOrder
