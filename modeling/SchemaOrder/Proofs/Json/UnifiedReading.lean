import SchemaOrder.Proofs.Json.UnifiedLiterals

/-!
# JSON with the same line ends

A text and the text with line feeds are the JSON of the same value, or neither is JSON for the same
kind of reason. Line ends stand between the parts of a value only, where the reader skips them. The
readers are compared function by function; values, items and members are read by one recursion on
the fuel, so `allAlike` follows all three of them at once.
-/

namespace SchemaOrder.Json

open CodePoint (ofChar)
open Cursor (Unifies)
open Document (isLineEnd)
open Outcome (Parallel)
open ReadFault (SameKind)

variable {left right : Cursor}

/-- Behind the blanks both cursors still have the same in front of them. -/
theorem skipSpace_unifies (unifies : Unifies left right) :
    Unifies left.skipSpace right.skipSpace := by
  refine unifies.skip fun codePoint isEnd => ?_
  obtain rfl | rfl := Text.isLineEnd_iff.mp isEnd <;> rfl

/-- There is no more to read behind space than in front of it. -/
theorem length_skipSpace_le (cursor : Cursor) :
    cursor.skipSpace.rest.length ≤ cursor.rest.length :=
  (List.length_drop ..).trans_le (Nat.sub_le _ _)

/-- There is less to read behind a mark than in front of it. -/
theorem length_advance_lt {cursor : Cursor} {character : Char}
    (starts : cursor.startsWith character = true) :
    (cursor.advance 1).rest.length < cursor.rest.length := by
  obtain ⟨position, _ | ⟨first, others⟩⟩ := cursor
  · cases starts
  · exact Nat.lt_succ_self _

/-- A mark is passed at both cursors, with what it tells. -/
theorem SameRead.mark {α : Type} (unifies : Unifies left right) {character : Char}
    (notEnd : isLineEnd (ofChar character) = false) (starts : left.startsWith character = true)
    (value : α) : SameRead left right (value, left.advance 1) (value, right.advance 1) :=
  ⟨rfl, (Unifies.moves_one right notEnd starts).unifies unifies, length_advance_lt starts,
    length_advance_lt (unifies.startsWith_eq character notEnd ▸ starts)⟩

/-- Blanks may stand behind what was read. -/
theorem SameRead.skipSpace {α : Type} {read read' : α × Cursor}
    (same : SameRead left right read read') :
    SameRead left right (read.1, read.2.skipSpace) (read'.1, read'.2.skipSpace) :=
  ⟨same.value, skipSpace_unifies same.behind, (length_skipSpace_le _).trans_lt same.shorter,
    (length_skipSpace_le _).trans_lt same.shorter'⟩

section Values

variable {fuel : Nat}

/-- A value is read in the same way at both cursors, as long as the fuel is enough for what is in
front of them. -/
def ValuesAlike (fuel : Nat) : Prop :=
  ∀ {fuel' : Nat} {left right : Cursor}, Unifies left right → 2 * left.rest.length < fuel →
    2 * right.rest.length < fuel' →
      Parallel SameKind (SameRead left right) (readValue fuel left) (readValue fuel' right)

/-- So are the missing parts of an array or of an object. -/
def PartsAlike {Part : Type}
    (readParts : Nat → Cursor → List Part → Except ReadFault (List Part × Cursor))
    (fuel : Nat) : Prop :=
  ∀ {fuel' : Nat} {left right : Cursor}, Unifies left right → 2 * left.rest.length + 1 < fuel →
    2 * right.rest.length + 1 < fuel' → ∀ known,
      Parallel SameKind (SameRead left right) (readParts fuel left known)
        (readParts fuel' right known)

/-- What a mark opens: nothing where another mark closes it at once, or else the parts that are read
behind the blanks. -/
def readEnclosed {Part : Type} (closing : Char)
    (readParts : Cursor → List Part → Except ReadFault (List Part × Cursor)) (cursor : Cursor) :
    Except ReadFault (List Part × Cursor) :=
  let inside := (cursor.advance 1).skipSpace
  if inside.startsWith closing then .ok ([], inside.advance 1) else readParts inside []

/-- What follows a part: the mark that closes all of them, or a comma and the parts that are still
missing. -/
def readFurther {Part : Type} (closing : Char)
    (readParts : Cursor → List Part → Except ReadFault (List Part × Cursor)) (known : List Part)
    (cursor : Cursor) : Except ReadFault (List Part × Cursor) :=
  let next := cursor.skipSpace
  if next.startsWith closing then .ok (known.reverse, next.advance 1)
  else if next.startsWith ',' then readParts (next.advance 1).skipSpace known
  else next.malformed .expectingComma

/-- A member behind its name: a colon and a value. -/
def readMember (fuel : Nat) (cursor : Cursor) : Except ReadFault (Json × Cursor) :=
  let next := cursor.skipSpace
  if !next.startsWith ':' then next.malformed .expectingColon
  else readValue fuel (next.advance 1).skipSpace

/-- What a value is told by its first code point, with fuel left. -/
theorem readValue_succ (fuel : Nat) (cursor : Cursor) :
    readValue (fuel + 1) cursor =
      if cursor.startsWith '"' then
        (readText cursor).map fun (content, next) => (.text content, next)
      else if cursor.startsWith '\x7b' then
        (readEnclosed '\x7d' (readMembers fuel) cursor).map
          fun (members, next) => (ofMembers members, next)
      else if cursor.startsWith '[' then
        (readEnclosed ']' (readItems fuel) cursor).map fun (items, next) => (.array items, next)
      else readAtom cursor := by
  unfold readEnclosed
  rw [readValue]
  dsimp only
  split
  · rfl
  split
  · split <;> rfl
  split
  · split <;> rfl
  · rfl

/-- An item is read, and then the others, if there is a comma. -/
theorem readItems_succ (fuel : Nat) (cursor : Cursor) (known : List Json) :
    readItems (fuel + 1) cursor known =
      readValue fuel cursor >>= fun (item, next) =>
        readFurther ']' (readItems fuel) (item :: known) next := by
  rw [readItems]
  cases readValue fuel cursor <;> rfl

/-- A member is read by its name and its value, and then the others, if there is a comma. -/
theorem readMembers_succ (fuel : Nat) (cursor : Cursor) (known : List (Text × Json)) :
    readMembers (fuel + 1) cursor known =
      if !cursor.startsWith '"' then cursor.malformed .expectingName
      else
        readText cursor >>= fun (name, next) => readMember fuel next >>= fun (value, next) =>
          readFurther '\x7d' (readMembers fuel) ((name, value) :: known) next := by
  rw [readMembers]
  split
  · rfl
  cases readText cursor with
  | error fault => rfl
  | ok read =>
      dsimp only [readMember, bind, Except.bind]
      split
      · rfl
      · cases readValue fuel (read.2.skipSpace.advance 1).skipSpace <;> rfl

variable {fuel' : Nat}

/-- What a mark opens is read in the same way, if its parts are. -/
theorem readEnclosed_parallel {Part : Type}
    {readParts : Nat → Cursor → List Part → Except ReadFault (List Part × Cursor)}
    (parts : PartsAlike readParts fuel) {closing opening : Char}
    (notEnd : isLineEnd (ofChar closing) = false) (notEnd' : isLineEnd (ofChar opening) = false)
    (unifies : Unifies left right) (opens : left.startsWith opening = true)
    (enough : 2 * left.rest.length < fuel + 1) (enough' : 2 * right.rest.length < fuel' + 1) :
    Parallel SameKind (SameRead left right) (readEnclosed closing (readParts fuel) left)
      (readEnclosed closing (readParts fuel') right) := by
  have inside := (SameRead.mark unifies notEnd' opens ()).skipSpace
  have before := inside.shorter
  have before' := inside.shorter'
  dsimp only at before before'
  have sameEnd := inside.behind.startsWith_eq closing notEnd
  unfold readEnclosed
  dsimp only
  rw [← sameEnd]
  split
  next closes =>
    exact .ok ((SameRead.mark inside.behind notEnd closes []).earlier before.le before'.le)
  · refine (parts inside.behind ?_ ?_ []).imp fun _ _ same => same.earlier before.le before'.le
    · dsimp only
      omega
    · dsimp only
      omega

/-- What follows a part is read in the same way, if the missing parts are. -/
theorem readFurther_parallel {Part : Type}
    {readParts : Nat → Cursor → List Part → Except ReadFault (List Part × Cursor)}
    (parts : PartsAlike readParts fuel) {closing : Char}
    (notEnd : isLineEnd (ofChar closing) = false) (known : List Part)
    (unifies : Unifies left right) (enough : 2 * left.rest.length + 1 < fuel)
    (enough' : 2 * right.rest.length + 1 < fuel') :
    Parallel SameKind (SameRead left right) (readFurther closing (readParts fuel) known left)
      (readFurther closing (readParts fuel') known right) := by
  have next := skipSpace_unifies unifies
  have before := length_skipSpace_le left
  have before' := length_skipSpace_le right
  unfold readFurther
  dsimp only
  rw [← next.startsWith_eq closing notEnd, ← next.startsWith_eq ',' rfl]
  split
  next closes =>
    exact .ok ((SameRead.mark next notEnd closes known.reverse).earlier before before')
  split
  next isComma =>
    have others := (SameRead.mark next rfl isComma ()).skipSpace
    have shorter := others.shorter.trans_le before
    have shorter' := others.shorter'.trans_le before'
    dsimp only at shorter shorter'
    refine (parts others.behind ?_ ?_ known).imp fun _ _ same =>
      same.earlier shorter.le shorter'.le
    · dsimp only
      omega
    · dsimp only
      omega
  · exact .error (.malformed _ _ _ _)

/-- A member is read in the same way behind its name, if values are. -/
theorem readMember_parallel (values : ValuesAlike fuel) (unifies : Unifies left right)
    (enough : 2 * left.rest.length < fuel) (enough' : 2 * right.rest.length < fuel') :
    Parallel SameKind (SameRead left right) (readMember fuel left) (readMember fuel' right) := by
  have next := skipSpace_unifies unifies
  have before := length_skipSpace_le left
  have before' := length_skipSpace_le right
  unfold readMember
  dsimp only
  rw [← next.startsWith_eq ':' rfl]
  split
  · exact .error (.malformed _ _ _ _)
  next isColon =>
    have starts : left.skipSpace.startsWith ':' = true := by simpa using isColon
    have value := (SameRead.mark next rfl starts ()).skipSpace
    have shorter := value.shorter.trans_le before
    have shorter' := value.shorter'.trans_le before'
    dsimp only at shorter shorter'
    refine (values value.behind ?_ ?_).imp fun _ _ same => same.earlier shorter.le shorter'.le
    · dsimp only
      omega
    · dsimp only
      omega

/-- Values are read in the same way, if the parts of arrays and objects are. -/
theorem valuesAlike_succ (items : PartsAlike readItems fuel)
    (members : PartsAlike readMembers fuel) : ValuesAlike (fuel + 1) := by
  intro fuel' left right unifies enough enough'
  obtain _ | fuel' := fuel'
  · omega
  rw [readValue_succ, readValue_succ, ← unifies.startsWith_eq '"' rfl,
    ← unifies.startsWith_eq '\x7b' rfl,
    ← unifies.startsWith_eq '[' rfl]
  split
  next isText =>
    exact (readText_parallel unifies isText).map fun _ _ same =>
      ⟨congrArg Json.text same.value, same.behind, same.shorter, same.shorter'⟩
  split
  next isObject =>
    exact (readEnclosed_parallel members rfl rfl unifies isObject enough enough').map
      fun _ _ same =>
        ⟨congrArg ofMembers same.value, same.behind, same.shorter, same.shorter'⟩
  split
  next isArray =>
    exact (readEnclosed_parallel items rfl rfl unifies isArray enough enough').map
      fun _ _ same =>
        ⟨congrArg Json.array same.value, same.behind, same.shorter, same.shorter'⟩
  · exact readAtom_parallel unifies

/-- The items of an array are read in the same way, if values and the items behind are. -/
theorem itemsAlike_succ (values : ValuesAlike fuel) (items : PartsAlike readItems fuel) :
    PartsAlike readItems (fuel + 1) := by
  intro fuel' left right unifies enough enough' known
  obtain _ | fuel' := fuel'
  · omega
  rw [readItems_succ, readItems_succ]
  refine (values unifies (by omega) (by omega)).bind ?_
  rintro ⟨item, next⟩ ⟨item', next'⟩ ⟨sameItem, behind, shorter, shorter'⟩
  dsimp only at sameItem behind shorter shorter'
  subst sameItem
  exact (readFurther_parallel items rfl (item :: known) behind (by omega) (by omega)).imp
    fun _ _ same => same.earlier shorter.le shorter'.le

/-- The members of an object are read in the same way, if values and the members behind are. -/
theorem membersAlike_succ (values : ValuesAlike fuel) (members : PartsAlike readMembers fuel) :
    PartsAlike readMembers (fuel + 1) := by
  intro fuel' left right unifies enough enough' known
  obtain _ | fuel' := fuel'
  · omega
  rw [readMembers_succ, readMembers_succ, ← unifies.startsWith_eq '"' rfl]
  split
  · exact .error (.malformed _ _ _ _)
  next isName =>
    refine (readText_parallel unifies (by simpa using isName)).bind ?_
    rintro ⟨name, named⟩ ⟨name', named'⟩ ⟨sameName, atName, beforeName, beforeName'⟩
    dsimp only at sameName atName beforeName beforeName'
    subst sameName
    refine (readMember_parallel values atName (by omega) (by omega)).bind ?_
    rintro ⟨value, next⟩ ⟨value', next'⟩ ⟨sameValue, behind, shorter, shorter'⟩
    dsimp only at sameValue behind shorter shorter'
    subst sameValue
    exact (readFurther_parallel members rfl ((name, value) :: known) behind (by omega)
      (by omega)).imp fun _ _ same => same.earlier (by omega) (by omega)

/-- With any fuel that is enough, values, items and members are read in the same way. -/
theorem allAlike (fuel : Nat) :
    ValuesAlike fuel ∧ PartsAlike readItems fuel ∧ PartsAlike readMembers fuel := by
  induction fuel with
  | zero =>
      refine ⟨?_, ?_, ?_⟩ <;>
        · intro _ _ _ _ enough
          cases enough
  | succ fuel inductionHypothesis =>
      obtain ⟨values, items, members⟩ := inductionHypothesis
      exact ⟨valuesAlike_succ items members, itemsAlike_succ values items,
        membersAlike_succ values members⟩

end Values

/-- A text and the text with line feeds are the JSON of the same value, or neither is JSON for the
same kind of reason. -/
theorem parse_unifyLineEnds (source : Text) :
    Parallel SameKind Eq (parse source) (parse (Text.unifyLineEnds source)) := by
  have unifies := Text.unifies_unifyLineEnds source
  have notEnd : isLineEnd (CodePoint.ofNat 0xFEFF) = false := rfl
  have start : Unifies (Cursor.start source) (Cursor.start (Text.unifyLineEnds source)) := unifies
  have enough (source : Text) :
      2 * (Cursor.start source).skipSpace.rest.length < 2 * source.length + 2 := by
    have before : _ ≤ source.length := length_skipSpace_le (Cursor.start source)
    omega
  unfold parse
  simp only [unifies.head?_eq_some_iff notEnd]
  split
  · exact .error (.malformed _ _ _ _)
  · have values := (allAlike (2 * source.length + 2)).1 (skipSpace_unifies start) (enough source)
      (enough (Text.unifyLineEnds source))
    generalize readValue _ _ = read at values ⊢
    generalize readValue _ _ = read' at values ⊢
    cases values with
    | error same => exact .error same
    | @ok first second same =>
        have behind := (skipSpace_unifies same.behind).isEmpty_eq
        dsimp only
        rw [same.value, behind]
        split
        · exact .ok rfl
        · exact .error (.malformed _ _ _ _)

end SchemaOrder.Json
