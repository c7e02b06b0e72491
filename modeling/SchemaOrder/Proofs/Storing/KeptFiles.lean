import SchemaOrder.Proofs.Storing.WrittenFiles

/-!
# Files that are kept

Making directories keeps every file, and writing a file keeps every other one: `Keeps` says what
changes between two volumes and what does not, and it holds of one step after another. Directories
stay where they are, so a path inside a directory leads to the same place before and after.
-/

namespace SchemaOrder.Volume

open Outcome

/-- The content of the file at a place, if there is one. -/
def fileAt? (volume : Volume) (place : List Text) : Option Bytes :=
  match volume.at? place with
  | some (.file content) => some content
  | _ => none

/-- One volume becomes another one without any file being made or changed, except those at certain
places. Directories are only added. -/
structure Keeps (except : List Text → Prop) (before after : Volume) : Prop where
  current : after.current = before.current
  directory : ∀ place, before.at? place = some .directory → after.at? place = some .directory
  file : ∀ place, ¬ except place → after.fileAt? place = before.fileAt? place

/-- No place at all. -/
def nowhere (_ : List Text) : Prop :=
  False

namespace Keeps

variable {except except' : List Text → Prop} {before between after : Volume}

/-- A volume that nothing happens to keeps its files. -/
theorem refl (volume : Volume) : Keeps except volume volume :=
  ⟨rfl, fun _ isDirectory => isDirectory, fun _ _ => rfl⟩

/-- What two changes keep is kept by both together. -/
theorem trans (first : Keeps except before between) (second : Keeps except between after) :
    Keeps except before after where
  current := second.current.trans first.current
  directory place isDirectory := second.directory place (first.directory place isDirectory)
  file place kept := (second.file place kept).trans (first.file place kept)

/-- More places may be excepted. -/
theorem imp (keeps : Keeps except before after) (more : ∀ place, except place → except' place) :
    Keeps except' before after :=
  ⟨keeps.current, keeps.directory, fun place kept => keeps.file place (kept ∘ more place)⟩

end Keeps

variable {volume after : Volume} {place : List Text}

/-- A directory where there is nothing changes no file. -/
theorem put_directory_keeps (nothing : volume.at? place = none) :
    volume.Keeps nowhere (volume.put place .directory) := by
  have free : place.isPrefixOf volume.current = false := by
    rw [Bool.eq_false_iff]
    intro leads
    rw [at?, if_pos leads] at nothing
    cases nothing
  refine ⟨rfl, fun other isDirectory => ?_, fun other _ => ?_⟩
  · rw [at?_put_of_ne, isDirectory]
    rintro rfl
    rw [nothing] at isDirectory
    cases isDirectory
  · by_cases same : other = place
    · rw [same, fileAt?, fileAt?, at?_put_self free, nothing]
    · rw [fileAt?, at?_put_of_ne same, fileAt?]

/-- A file where there is no directory changes no other file. -/
theorem put_file_keeps {content : Bytes} (noDirectory : volume.at? place ≠ some .directory) :
    volume.Keeps (· = place) (volume.put place (.file content)) := by
  refine ⟨rfl, fun other isDirectory => ?_, fun other different => ?_⟩
  · rw [at?_put_of_ne, isDirectory]
    rintro rfl
    exact noDirectory isDirectory
  · rw [fileAt?, at?_put_of_ne different, fileAt?]

/-- What a path leads to stands at the place it leads to. -/
theorem eq_at?_of_find {path : Text} {node : Option Node}
    (found : volume.find path = .ok (place, node)) : node = volume.at? place :=
  eq_at?_of_follow (find_eq_ok_iff.mp found).2.2.2.1

/-- Making a directory changes no file. -/
theorem makeDirectory_keeps {path : Text} (made : volume.makeDirectory path = .ok after) :
    volume.Keeps nowhere after := by
  obtain ⟨-, -, rest⟩ := bind_eq_ok_iff.mp made
  split at rest
  · cases rest
  · cases rest
  · cases rest
  · next found =>
      cases rest
      exact put_directory_keeps (eq_at?_of_find found).symm

/-- What making one directory keeps, making the last one of a path keeps. -/
theorem makeLastDirectory_induction {holds : Volume → Prop} {prepared : Volume}
    (initially : holds prepared)
    (step : ∀ {volume after path}, holds volume → volume.makeDirectory path = .ok after →
      holds after) (volume : Volume) (path : Text) :
    holds (makeLastDirectory volume prepared path).1 := by
  unfold makeLastDirectory
  rcases Path.splitLast path with ⟨head, tail⟩
  dsimp only
  split
  · exact initially
  · split
    · next made => exact step initially made
    · split <;> exact initially
    · exact initially

/-- What making one directory keeps, making a directory with all that lead to it keeps, whether it
succeeds or not. -/
theorem makeDirectories_induction (holds : Volume → Prop) (initially : holds volume)
    (step : ∀ {volume after path}, holds volume → volume.makeDirectory path = .ok after →
      holds after) (path : Text) : holds (volume.makeDirectories path).1 := by
  have withFuel : ∀ (fuel : Nat) (path : Text),
      holds (makeDirectoriesWith fuel volume path).1 := by
    intro fuel
    induction fuel with
    | zero => exact makeLastDirectory_induction initially step volume
    | succ fuel inductionHypothesis =>
        intro path
        unfold makeDirectoriesWith
        dsimp only
        have prepares := inductionHypothesis (Path.splitLast path).1
        split
        · split
          · next isPrepared =>
              rw [isPrepared] at prepares
              exact makeLastDirectory_induction prepares step volume path
          · next isPrepared =>
              rw [isPrepared] at prepares
              exact makeLastDirectory_induction prepares step volume path
          · exact prepares
        · exact makeLastDirectory_induction initially step volume path
  exact withFuel path.length path

/-- Making a directory with all that lead to it changes no file. -/
theorem makeDirectories_keeps (volume : Volume) (path : Text) :
    volume.Keeps nowhere (volume.makeDirectories path).1 :=
  makeDirectories_induction (volume.Keeps nowhere) (.refl volume)
    (fun keeps made => keeps.trans (makeDirectory_keeps made)) path

/-- Writing a file changes no other one, and the path leads to the file then. -/
theorem write_keeps {path : Text} {content : Bytes}
    (written : volume.write path content = .ok after) :
    ∃ place, volume.placeToWrite path = .ok place ∧ volume.Keeps (· = place) after ∧
      after.find path = .ok (place, some (.file content)) := by
  obtain ⟨place, isPlace, rest⟩ := bind_eq_ok_iff.mp written
  cases rest
  obtain ⟨before, isFound, noDirectory, -⟩ := find_of_placeToWrite isPlace
  have isAt := eq_at?_of_find isFound
  exact ⟨place, isPlace, put_file_keeps (isAt ▸ noDirectory), find_put isPlace⟩

/-- A file that is there is written at its place. -/
theorem placeToWrite_of_file {path : Text} {content : Bytes}
    (found : volume.find path = .ok (place, some (.file content))) :
    volume.placeToWrite path = .ok place := by
  rw [placeToWrite, (find_eq_ok_iff.mp found).1, found]
  rfl

/-- A file that was written can be written again, at the same place. -/
theorem placeToWrite_of_write {path : Text} {content : Bytes}
    (isPlace : volume.placeToWrite path = .ok place)
    (written : volume.write path content = .ok after) : after.placeToWrite path = .ok place := by
  obtain ⟨other, isOther, rest⟩ := bind_eq_ok_iff.mp written
  cases rest
  obtain rfl := Except.ok.inj (isPlace.symm.trans isOther)
  exact placeToWrite_of_file (find_put isPlace)

end SchemaOrder.Volume
