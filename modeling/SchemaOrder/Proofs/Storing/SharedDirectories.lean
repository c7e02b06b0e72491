import SchemaOrder.Proofs.Storing.DirectoryEntries

/-!
# Volumes with the same directories

Writing files into a directory leaves all directories and all other files as they are. `DifferIn`
says this of two volumes. A path to a plain name in another directory is then read in the same way,
and one to a name in the directory itself can be written in the one volume exactly if it can be
written in the other, at the same place and with the same refusals.
-/

namespace SchemaOrder.Volume

open Outcome
open SchemaOrder.Path (IsPlain)

variable {volume left middle right : Volume} {start place other : List Text} {names : List Text}
  {path name : Text}

/-- Volumes with the same directories and the same files, apart from those that are named in one
directory. -/
structure DifferIn (place : List Text) (left right : Volume) : Prop where
  current : right.current = left.current
  directory : ∀ other, right.at? other = some .directory ↔ left.at? other = some .directory
  elsewhere : ∀ other, (∀ name, other ≠ place ++ [name]) → right.at? other = left.at? other

namespace DifferIn

/-- A volume differs from itself nowhere. -/
theorem refl (place : List Text) (volume : Volume) : DifferIn place volume volume :=
  ⟨rfl, fun _ => Iff.rfl, fun _ _ => rfl⟩

/-- Two differences in one directory are one difference in it. -/
theorem trans (first : DifferIn place left middle) (second : DifferIn place middle right) :
    DifferIn place left right :=
  ⟨second.current.trans first.current,
    fun other => (second.directory other).trans (first.directory other),
    fun other beside => (second.elsewhere other beside).trans (first.elsewhere other beside)⟩

/-- A file that is put into the directory makes a difference there only. -/
theorem put {content : Bytes} (noDirectory : volume.at? (place ++ [name]) ≠ some .directory) :
    DifferIn place volume (volume.put (place ++ [name]) (.file content)) := by
  have free : (place ++ [name]).isPrefixOf volume.current = false := by
    rw [Bool.eq_false_iff]
    intro leads
    rw [at?, if_pos leads] at noDirectory
    exact noDirectory rfl
  refine ⟨rfl, fun other => ?_, fun other beside => at?_put_of_ne (beside name)⟩
  by_cases same : other = place ++ [name]
  · rw [same, at?_put_self free]
    exact iff_of_false (by simp) noDirectory
  · rw [at?_put_of_ne same]

/-- No directory is lost, and no file elsewhere is made or changed. -/
theorem keeps (differ : DifferIn place left right) :
    left.Keeps (fun other => ∃ name, other = place ++ [name]) right where
  current := differ.current
  directory := fun other => (differ.directory other).mpr
  file := fun other beside => by
    rw [fileAt?, fileAt?, differ.elsewhere other (not_exists.mp beside)]

/-- A path that leads to a directory in one of the volumes leads there in the other one. -/
theorem directoryAt? (differ : DifferIn place left right)
    (leads : left.directoryAt? path = some other) : right.directoryAt? path = some other :=
  differ.keeps.directoryAt? leads

end DifferIn

/-- Whether the file system takes a path to a name in a directory at all. -/
def checkEntry (path name : Text) : Except FileFault Unit := do
  let entry := Path.join path name
  checkPath entry
  if pathBound ≤ (Text.encodeLoosely entry).length ||
      longestName < (Text.encodeLoosely name).length then
    .error (.refused .nameTooLong entry)

/-- Names that lead to a directory are followed before those behind them. -/
theorem follow_append (followed : volume.follow start names = .ok (place, some .directory))
    (more : List Text) : volume.follow start (names ++ more) = volume.follow place more := by
  induction names generalizing start with
  | nil =>
      rw [follow, Except.ok.injEq, Prod.mk.injEq] at followed
      rw [List.nil_append, followed.1]
  | cons first others inductionHypothesis =>
      rw [follow] at followed
      rw [List.cons_append, follow]
      split at followed
      · cases followed
      · cases followed
      · split_ifs at followed ⊢ <;> exact inductionHypothesis followed

/-- A plain name is followed from a directory to what stands there, unless it is too long. -/
theorem follow_name (plain : IsPlain name) (isDirectory : volume.at? place = some .directory) :
    volume.follow place [name] =
      if longestName < (Text.encodeLoosely name).length then .error .nameTooLong
      else .ok (place ++ [name], volume.at? (place ++ [name])) := by
  simp only [follow, isDirectory, if_neg plain.notHere, if_neg plain.notUp]

/-- A path to a name in a directory leads to what stands there, if the file system takes it. -/
theorem find_join (plain : IsPlain name) (leads : volume.directoryAt? path = some place) :
    volume.find (Path.join path name) = (checkEntry path name).map fun _ =>
      (place ++ [name], volume.at? (place ++ [name])) := by
  have toDirectory := directoryAt?_eq_some_iff.mp leads
  have followed : volume.follow (volume.startOf (Path.join path name))
      (Path.components (Path.join path name)) = volume.follow place [name] := by
    rw [startOf_join plain, plain.components_join, follow_append toDirectory]
  rw [follow_name plain (eq_at?_of_follow toDirectory).symm] at followed
  unfold find checkEntry
  dsimp only
  cases checkPath (Path.join path name) with
  | error fault => rfl
  | ok done =>
      rw [plain.isEmpty_join, followed]
      by_cases long : pathBound ≤ (Text.encodeLoosely (Path.join path name)).length
      · simp [long, bind, Except.bind, Except.map]
      · by_cases longName : longestName < (Text.encodeLoosely name).length
        · simp [long, longName, bind, Except.bind, Except.map]
        · cases volume.at? (place ++ [name]) with
          | none => simp [long, longName, bind, Except.bind, Except.map, pure, Except.pure]
          | some node =>
              cases node <;> simp [long, longName, plain.getLast?_join_ne, bind, Except.bind,
                Except.map, pure, Except.pure]

/-- What is read under a plain name in a directory is the same in volumes with the same directory
and the same thing under the name. -/
theorem read_join_eq (plain : IsPlain name) (leads : left.directoryAt? path = some place)
    (leads' : right.directoryAt? path = some place)
    (same : right.at? (place ++ [name]) = left.at? (place ++ [name])) :
    right.read (Path.join path name) = left.read (Path.join path name) := by
  rw [read, read, find_join plain leads, find_join plain leads', same]

/-- A file can be written under a plain name in a directory, if the file system takes the path and
no directory is there. -/
theorem placeToWrite_join (plain : IsPlain name) (leads : volume.directoryAt? path = some place) :
    volume.placeToWrite (Path.join path name) = checkEntry path name >>= fun _ =>
      if volume.at? (place ++ [name]) = some .directory then
        .error (.refused .isDirectory (Path.join path name))
      else .ok (place ++ [name]) := by
  have found := find_join plain leads
  have unmarked : ((Path.join path name).getLast? = some Path.separator) = False :=
    eq_false plain.getLast?_join_ne
  unfold placeToWrite
  rw [found]
  unfold checkEntry
  dsimp only
  cases checkPath (Path.join path name) with
  | error fault => rfl
  | ok done =>
      by_cases long : (pathBound ≤ (Text.encodeLoosely (Path.join path name)).length ||
        longestName < (Text.encodeLoosely name).length) = true
      · simp [long, bind, Except.bind, Except.map]
      · rw [Bool.not_eq_true] at long
        cases volume.at? (place ++ [name]) with
        | none => simp [long, unmarked, bind, Except.bind, Except.map, pure, Except.pure]
        | some node =>
            cases node <;> simp [long, bind, Except.bind, Except.map, pure, Except.pure]

namespace DifferIn

variable (differ : DifferIn place left right) (plain : IsPlain name)
include differ plain

/-- Files of another directory are read in the same way. -/
theorem read_join (leads : left.directoryAt? path = some other) (apart : other ≠ place) :
    right.read (Path.join path name) = left.read (Path.join path name) := by
  refine read_join_eq plain leads (differ.directoryAt? leads) (differ.elsewhere _ ?_)
  intro file same
  exact apart (List.append_inj' same rfl).1

/-- Files of the directory itself can be written in the same way. -/
theorem placeToWrite_join (leads : left.directoryAt? path = some place) :
    right.placeToWrite (Path.join path name) = left.placeToWrite (Path.join path name) := by
  rw [Volume.placeToWrite_join plain leads, Volume.placeToWrite_join plain
    (differ.directoryAt? leads)]
  simp only [differ.directory]

end DifferIn

end SchemaOrder.Volume
