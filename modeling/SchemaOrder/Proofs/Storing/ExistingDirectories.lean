import Mathlib.Data.List.TakeWhile
import SchemaOrder.Proofs.Storing.DirectoryEntries

/-!
# Directories that are there already

The front part of a path leads to a directory wherever the whole path does. So a directory that is
there already is made without making or changing anything: `makeDirectories_of_directory`. The
directory of a path to a name in a directory is that directory, however many separators the path of
the directory ends in.
-/

namespace SchemaOrder

open Outcome

/-- Part of a text that has UTF-8 has UTF-8, which the UTF-8 of the text begins with. -/
theorem Text.encode_of_append {front rest : Text} {bytes : Bytes}
    (encoded : (front ++ rest).encode = .ok bytes) :
    ∃ first, front.encode = .ok first ∧ ∃ others, bytes = first ++ others := by
  unfold encode at encoded ⊢
  split at encoded
  · cases encoded
  next noSurrogates =>
  rw [firstSurrogates_eq_none_iff] at noSurrogates
  have noneInFront : firstSurrogates 0 front = none :=
    firstSurrogates_eq_none_iff.mpr fun codePoint mem =>
      noSurrogates codePoint (List.mem_append_left rest mem)
  rw [noneInFront]
  refine ⟨_, rfl, encodeLoosely rest, ?_⟩
  rw [← Except.ok.inj encoded, encodeLoosely, List.flatMap_append]
  rfl

namespace Path

variable {path front rest name : Text}

/-- A path that falls apart between two of its names leads through the names of the first part and
then through those of the second one. -/
theorem components_append
    (boundary : front.getLast? = some separator ∨ rest.head? = some separator) :
    components (front ++ rest) = components front ++ components rest := by
  have marked : ∀ first second : Text, components (first ++ separator :: second) =
      components first ++ components second := by
    intro first second
    rw [components, Text.splitOn_append_separator, List.filter_append]
    rfl
  have nothing : components [] = [] := rfl
  rcases boundary with atEnd | atHead
  · obtain ⟨before, rfl⟩ := List.getLast?_eq_some_iff.mp atEnd
    rw [List.append_assoc, List.singleton_append, marked, marked, nothing, List.append_nil]
  · cases rest with
    | nil => cases atHead
    | cons first others =>
        cases atHead
        have alone := marked [] others
        rw [List.nil_append, nothing, List.nil_append] at alone
        rw [marked, alone]

/-- What stands behind the separators that a path does not end in when they are dropped. -/
theorem exists_dropSeparators (path : Text) : ∃ separators,
    path = dropSeparators path ++ separators ∧
      ∀ codePoint ∈ separators, codePoint = separator := by
  refine ⟨(path.reverse.takeWhile (· = separator)).reverse, ?_, ?_⟩
  · rw [dropSeparators, ← List.reverse_append, List.takeWhile_append_dropWhile,
      List.reverse_reverse]
  · intro codePoint mem
    simpa using List.mem_takeWhile_imp (List.mem_reverse.mp mem)

/-- A path falls apart into what stands up to its last separator and a name; of the first part the
separators at the end are dropped, unless it has nothing else. -/
theorem exists_split (path : Text) : ∃ before, path = before ++ (split path).2 ∧
    separator ∉ (split path).2 ∧ (before = [] ∨ before.getLast? = some separator) ∧
    (split path).1 = if (dropSeparators before).isEmpty then before
      else dropSeparators before := by
  let front := (path.reverse.dropWhile (· ≠ separator)).reverse
  have parts : path = front ++ (split path).2 := by
    change path = front ++ (path.reverse.takeWhile (· ≠ separator)).reverse
    rw [← List.reverse_append, List.takeWhile_append_dropWhile, List.reverse_reverse]
  have isBefore : path.take (path.length - (split path).2.length) = front := by
    have sameLength := congrArg List.length parts
    rw [List.length_append] at sameLength
    have front_length : path.length - (split path).2.length = front.length := by omega
    rw [front_length]
    conv => lhs; rw [parts]
    exact List.take_left
  refine ⟨front, parts, ?_, ?_, ?_⟩
  · intro mem
    simpa using List.mem_takeWhile_imp (List.mem_reverse.mp mem)
  · have atEnd := List.head?_dropWhile_not (· ≠ separator) path.reverse
    rw [← List.getLast?_reverse] at atEnd
    cases isLast : front.getLast? with
    | none => exact .inl (List.getLast?_eq_none_iff.mp isLast)
    | some last =>
        rw [show (path.reverse.dropWhile (· ≠ separator)).reverse.getLast? = some last
          from isLast] at atEnd
        right
        simpa using atEnd
  · rw [← isBefore]
    rfl

/-- A path that does not end in a separator leads through a name. -/
theorem components_ne_nil (nonempty : path ≠ []) (unmarked : path.getLast? ≠ some separator) :
    components path ≠ [] := by
  obtain ⟨before, parts, whole, atEnd, -⟩ := exists_split path
  generalize (split path).2 = last at parts whole
  subst parts
  have named : last ≠ [] := by
    rintro rfl
    rw [List.append_nil] at nonempty unmarked
    exact unmarked (atEnd.resolve_left nonempty)
  have isComponent : components last = [last] := by
    rw [components, Text.splitOn_eq_singleton_iff.mpr whole]
    simp [named]
  rcases atEnd with rfl | atEnd
  · rw [List.nil_append, isComponent]
    exact List.cons_ne_nil _ _
  · rw [components_append (.inl atEnd), isComponent]
    exact List.append_ne_nil_of_right_ne_nil _ (List.cons_ne_nil _ _)

/-- A part of a path, from its beginning, that ends between two of its names. -/
def IsFront (front path : Text) : Prop :=
  front ≠ [] ∧ ∃ rest, path = front ++ rest ∧
    (front.getLast? = some separator ∨ rest.head? = some separator)

/-- A front of a front is a front of the path. -/
theorem IsFront.trans {middle : Text} (first : IsFront front middle)
    (second : IsFront middle path) : IsFront front path := by
  obtain ⟨nonempty, rest, rfl, boundary⟩ := first
  obtain ⟨-, more, rfl, -⟩ := second
  refine ⟨nonempty, rest ++ more, List.append_assoc .., boundary.imp_right fun atHead => ?_⟩
  rw [List.head?_append, atHead]
  rfl

/-- What a path names something in is a front part of it. -/
theorem isFront_split (nonempty : (split path).1 ≠ []) : IsFront (split path).1 path := by
  obtain ⟨before, parts, -, atEnd, isFirst⟩ := exists_split path
  refine ⟨nonempty, ?_⟩
  rw [isFirst] at nonempty ⊢
  split at nonempty
  · next bare =>
      rw [if_pos bare]
      exact ⟨(split path).2, parts, .inl (atEnd.resolve_left nonempty)⟩
  · next trimmed =>
      rw [if_neg trimmed]
      obtain ⟨separators, isBefore, areSeparators⟩ := exists_dropSeparators before
      refine ⟨separators ++ (split path).2, ?_, ?_⟩
      · rw [← List.append_assoc, ← isBefore]
        exact parts
      · cases separators with
        | nil =>
            rw [List.append_nil] at isBefore
            rw [← isBefore] at nonempty ⊢
            exact .inl (atEnd.resolve_left nonempty)
        | cons first others => exact .inr (congrArg some (areSeparators first (by simp)))

/-- So is what it names its last name in, separators at its end aside. -/
theorem isFront_splitLast (nonempty : (splitLast path).1 ≠ []) :
    IsFront (splitLast path).1 path := by
  unfold splitLast at nonempty ⊢
  dsimp only at nonempty ⊢
  split
  · next noName =>
      rw [if_pos noName] at nonempty
      have inner := isFront_split nonempty
      refine inner.trans (isFront_split fun empty => ?_)
      rw [empty] at nonempty
      exact nonempty rfl
  · next named =>
      rw [if_neg named] at nonempty
      exact isFront_split nonempty

/-- A text falls apart in one way into what ends in a separator or is empty, and a name. -/
theorem split_append {before : Text} (whole : separator ∉ name)
    (atEnd : before = [] ∨ before.getLast? = some separator) :
    split (before ++ name) =
      (if (dropSeparators before).isEmpty then before else dropSeparators before, name) := by
  have inName : ∀ codePoint ∈ name.reverse, decide (codePoint ≠ separator) = true := by
    intro codePoint mem
    exact decide_eq_true fun same => whole (same ▸ List.mem_reverse.mp mem)
  have stops : before.reverse.takeWhile (· ≠ separator) = [] := by
    rcases atEnd with rfl | atEnd
    · rfl
    · obtain ⟨front, rfl⟩ := List.getLast?_eq_some_iff.mp atEnd
      simp
  have isName : ((before ++ name).reverse.takeWhile (· ≠ separator)).reverse = name := by
    rw [List.reverse_append, List.takeWhile_append_of_pos inName, stops, List.append_nil,
      List.reverse_reverse]
  have isBefore : (before ++ name).take ((before ++ name).length - name.length) = before := by
    rw [List.length_append, Nat.add_sub_cancel, List.take_left]
  unfold split
  dsimp only
  rw [isName, isBefore]

/-- Separators at the end of a path are dropped. -/
theorem dropSeparators_append_separator (path : Text) :
    dropSeparators (path ++ [separator]) = dropSeparators path := by
  simp [dropSeparators]

/-- A path that does not end in a separator loses none. -/
theorem dropSeparators_eq_self {path : Text} (unmarked : path.getLast? ≠ some separator) :
    dropSeparators path = path := by
  obtain ⟨separators, parts, areSeparators⟩ := exists_dropSeparators path
  rcases List.eq_nil_or_concat separators with rfl | ⟨others, last, rfl⟩
  · rw [List.append_nil] at parts
    exact parts.symm
  · refine absurd ?_ unmarked
    rw [parts, areSeparators last (by simp)]
    simp

/-- The directory of a path to a name in a directory is the path of the directory, without the
separators at its end unless it has nothing else. -/
theorem directory_join (plain : IsPlain name) {path : Text} (nonempty : path ≠ []) :
    directory (join path name) =
      if (dropSeparators path).isEmpty then path else dropSeparators path := by
  unfold directory join
  rw [if_neg plain.head?_ne]
  split
  · next marked =>
      have atEnd : path.getLast? = some separator := by
        simpa [nonempty] using marked
      rw [split_append plain.whole (.inr atEnd)]
  · next unmarked =>
      have same : dropSeparators path = path := dropSeparators_eq_self (by
        simpa [nonempty] using unmarked)
      have isEmpty : path.isEmpty = false := by simpa using nonempty
      rw [split_append plain.whole (.inr (by simp)), dropSeparators_append_separator, same,
        isEmpty]
      rfl

end Path

namespace Volume

variable {volume : Volume} {start place : List Text} {names more : List Text}
  {path front name : Text}

/-- Names that lead anywhere lead there through directories. -/
theorem follow_of_append {node : Option Node}
    (followed : volume.follow start (names ++ more) = .ok (place, node))
    (passes : more = [] → node = some .directory) :
    ∃ middle, volume.follow start names = .ok (middle, some .directory) ∧
      volume.follow middle more = .ok (place, node) := by
  induction names generalizing start with
  | nil =>
      have isDirectory : volume.at? start = some .directory := by
        cases more with
        | nil =>
            rw [List.nil_append, follow, Except.ok.injEq, Prod.mk.injEq] at followed
            exact followed.2.trans (passes rfl)
        | cons next others =>
            rw [List.nil_append, follow] at followed
            split at followed
            · cases followed
            · cases followed
            · assumption
      exact ⟨start, by rw [follow, isDirectory], followed⟩
  | cons first others inductionHypothesis =>
      rw [List.cons_append, follow] at followed
      rw [follow]
      split at followed
      · cases followed
      · cases followed
      · split_ifs at followed ⊢ <;> exact inductionHypothesis followed

/-- Part of a path whose form the file system takes has such a form as well. -/
theorem checkPath_of_append {rest : Text} (taken : checkPath (front ++ rest) = .ok ()) :
    checkPath front = .ok () := by
  unfold checkPath at taken ⊢
  extract_lets isEscaped plain at taken
  extract_lets plainFront
  have parts : plain = plainFront ++ rest.map _ := List.map_append
  split at taken
  · cases taken
  next bytes encoded =>
  split at taken
  · cases taken
  next noNull =>
  obtain ⟨encodedFront, isFront, others, rfl⟩ := Text.encode_of_append (parts ▸ encoded)
  rw [isFront]
  simp only
  rw [if_neg]
  intro hasNull
  exact noNull (by simpa using .inl (by simpa using hasNull))

/-- Each front part of a path that leads to a directory leads to a directory, and so does each one
of a path that ends in a name, wherever that leads. -/
theorem find_of_isFront {node : Option Node} (isFront : Path.IsFront front path)
    (found : volume.find path = .ok (place, node))
    (passes : node = some .directory ∨ path.getLast? ≠ some Path.separator) :
    ∃ middle, volume.find front = .ok (middle, some .directory) := by
  obtain ⟨nonempty, rest, rfl, boundary⟩ := isFront
  obtain ⟨taken, -, short, followed, -⟩ := find_eq_ok_iff.mp found
  rw [Path.components_append boundary] at followed
  have sameStart : volume.startOf (front ++ rest) = volume.startOf front := by
    unfold startOf
    rw [List.head?_append_of_ne_nil _ nonempty]
  have endsInName : Path.components rest = [] → (front ++ rest).getLast? = some Path.separator := by
    intro noName
    rcases eq_or_ne rest [] with rfl | more
    · rw [List.append_nil]
      exact boundary.resolve_right nofun
    · rw [List.getLast?_append_of_ne_nil _ more]
      by_contra unmarked
      exact Path.components_ne_nil more unmarked noName
  obtain ⟨middle, leads, -⟩ := follow_of_append (sameStart ▸ followed) fun noName =>
    passes.resolve_right (not_not_intro (endsInName noName))
  refine ⟨middle, find_eq_ok_iff.mpr ⟨checkPath_of_append taken, by simpa using nonempty, ?_, leads,
    nofun⟩⟩
  refine Nat.lt_of_le_of_lt ?_ short
  rw [Text.encodeLoosely, Text.encodeLoosely, List.flatMap_append, List.length_append]
  exact Nat.le_add_right _ _

/-- A directory that is there need not be made. -/
theorem makeLastDirectory_of_directory
    (found : volume.find path = .ok (place, some .directory)) :
    makeLastDirectory volume volume path = (volume, .ok ()) := by
  have isDirectory : volume.isDirectory path = true := by
    rw [Volume.isDirectory, found]
  have refused : volume.makeDirectory path = .error (.refused .exists path) := by
    rw [makeDirectory, (find_eq_ok_iff.mp found).1, found]
    rfl
  unfold makeLastDirectory
  rw [refused]
  simp only [isDirectory, if_true, ite_self]

/-- Neither need those that lead to it. -/
theorem makeDirectories_of_directory (found : volume.find path = .ok (place, some .directory)) :
    volume.makeDirectories path = (volume, .ok ()) := by
  unfold makeDirectories
  cases path.length with
  | zero => exact makeLastDirectory_of_directory found
  | succ fuel =>
      have leads : (Path.splitLast path).1.isEmpty = false →
          volume.exists? (Path.splitLast path).1 = true := by
        intro nonempty
        obtain ⟨middle, foundFront⟩ :=
          find_of_isFront (Path.isFront_splitLast (by simpa using nonempty)) found (.inl rfl)
        rw [exists?, foundFront]
      unfold makeDirectoriesWith
      dsimp only
      rw [if_neg, makeLastDirectory_of_directory found]
      simp only [Bool.and_eq_true, Bool.not_eq_true']
      rintro ⟨⟨nonempty, -⟩, missing⟩
      rw [leads nonempty] at missing
      cases missing

/-- The current directory is there. -/
theorem find_current (volume : Volume) :
    volume.find "." = .ok (volume.current, some .directory) := by
  have isHere : volume.at? volume.current = some .directory := by simp [at?]
  refine find_eq_ok_iff.mpr ⟨by decide, by decide, by decide, ?_, by simp⟩
  have isComponent : Path.components "." = [Text.ofString "."] := by decide
  rw [isComponent, show volume.startOf "." = volume.current from rfl, follow, isHere]
  exact congrArg (fun node => Except.ok (volume.current, node)) isHere

/-- The directory of a file that is there need not be made. -/
theorem makeDirectories_of_file {content : Bytes}
    (found : volume.find path = .ok (place, some (.file content))) :
    volume.makeDirectories (if (Path.directory path).isEmpty then "." else Path.directory path) =
      (volume, .ok ()) := by
  split
  · exact makeDirectories_of_directory volume.find_current
  · next named =>
      have nonempty : Path.directory path ≠ [] := by simpa using named
      have unmarked := (find_eq_ok_iff.mp found).2.2.2.2 content rfl
      obtain ⟨middle, foundDirectory⟩ :=
        find_of_isFront (Path.isFront_split nonempty) found (.inr unmarked)
      exact makeDirectories_of_directory foundDirectory

/-- The directory of a path to a name in a directory that is there is there. -/
theorem find_directory_join (plain : Path.IsPlain name)
    (found : volume.find path = .ok (place, some .directory)) :
    ∃ middle, volume.find (Path.directory (Path.join path name)) =
      .ok (middle, some .directory) := by
  have nonempty : path ≠ [] := by
    simpa using (find_eq_ok_iff.mp found).2.1
  rw [Path.directory_join plain nonempty]
  split
  · exact ⟨place, found⟩
  · next trimmed =>
      obtain ⟨separators, parts, areSeparators⟩ := Path.exists_dropSeparators path
      cases separators with
      | nil =>
          rw [List.append_nil] at parts
          rw [← parts]
          exact ⟨place, found⟩
      | cons first others =>
          refine find_of_isFront ⟨by simpa using trimmed, _, parts, .inr ?_⟩ found (.inl rfl)
          exact congrArg some (areSeparators first (by simp))

end Volume

end SchemaOrder
