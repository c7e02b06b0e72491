import SchemaOrder.Proofs.Storing.KeptFiles

/-!
# Files inside directories

A path that ends in a plain name leads to that name inside the directory that the rest of the path
leads to. Directories stay where they are, so what such a path leads to depends on the file at one
place only: `read_join_of_fileAt?` moves what is read from one volume to another one with the same
file at that place.
-/

namespace SchemaOrder

open Outcome

namespace Path

/-- A name that stands for one thing inside a directory. -/
structure IsPlain (name : Text) : Prop where
  nonempty : name ≠ []
  whole : separator ∉ name
  notHere : name ≠ "."
  notUp : name ≠ ".."

variable {directory name : Text}

/-- No name that a path leads through has a separator. -/
theorem notMem_of_mem_components {path : Text} (mem : name ∈ components path) :
    separator ∉ name :=
  Text.notMem_of_mem_splitOn (List.mem_filter.mp mem).1

namespace IsPlain

/-- A plain name does not begin with a separator. -/
theorem head?_ne (plain : IsPlain name) : name.head? ≠ some separator :=
  fun atHead => plain.whole (List.mem_of_head? atHead)

/-- It does not end with one. -/
theorem getLast?_ne (plain : IsPlain name) : name.getLast? ≠ some separator :=
  fun atEnd => plain.whole (List.mem_of_getLast? atEnd)

/-- A plain name is the only one that it leads through. -/
theorem components_eq (plain : IsPlain name) : components name = [name] := by
  rw [components, Text.splitOn_eq_singleton_iff.mpr plain.whole]
  simp [plain.nonempty]

/-- A path to a name in a directory leads through the directory to the name. -/
theorem components_join (plain : IsPlain name) :
    components (join directory name) = components directory ++ [name] := by
  have marked : ∀ front : Text,
      components (front ++ separator :: name) = components front ++ [name] := by
    intro front
    rw [components, Text.splitOn_append_separator, List.filter_append]
    exact congrArg (components front ++ ·) plain.components_eq
  unfold join
  rw [if_neg plain.head?_ne]
  split
  · next bare =>
      rw [Bool.or_eq_true, decide_eq_true_eq, List.isEmpty_iff] at bare
      rcases bare with rfl | atEnd
      · exact plain.components_eq
      · obtain ⟨front, rfl⟩ := List.getLast?_eq_some_iff.mp atEnd
        rw [List.append_assoc, List.singleton_append, marked, components, components,
          Text.splitOn_append_separator, List.filter_append]
        simp [Text.splitOn]
  · rw [List.append_assoc, List.singleton_append, marked]

/-- A path to a name in a directory ends as the name does. -/
theorem getLast?_join_ne (plain : IsPlain name) :
    (join directory name).getLast? ≠ some separator := by
  have ends : ∀ front : Text, (front ++ name).getLast? = name.getLast? := by
    intro front
    rw [List.getLast?_append_of_ne_nil _ plain.nonempty]
  unfold join
  rw [if_neg plain.head?_ne]
  split <;> rw [ends] <;> exact plain.getLast?_ne

/-- A path to a name in a directory is not empty. -/
theorem isEmpty_join (plain : IsPlain name) : (join directory name).isEmpty = false := by
  rw [List.isEmpty_eq_false_iff]
  intro empty
  have leads : components (join directory name) = components directory ++ [name] :=
    plain.components_join
  rw [empty] at leads
  exact List.append_ne_nil_of_right_ne_nil _ (List.cons_ne_nil name []) leads.symm

/-- A name without separators that is longer than those for the directory itself and the one above
is plain. -/
theorem of_length (whole : separator ∉ name) (long : 2 < name.length) : IsPlain name where
  nonempty empty := by simp [empty] at long
  whole := whole
  notHere same := by simp [same, Text.ofString] at long
  notUp same := by simp [same, Text.ofString] at long

end IsPlain

/-- A name without its extension holds nothing that the name does not hold. -/
theorem mem_of_mem_dropExtension {codePoint : CodePoint}
    (mem : codePoint ∈ dropExtension name) : codePoint ∈ name := by
  unfold dropExtension at mem
  dsimp only at mem
  split at mem
  · rcases List.mem_append.mp mem with leading | rest
    · exact (List.takeWhile_sublist _).subset leading
    · rw [List.mem_reverse] at rest
      have inRest := (List.dropWhile_sublist _).subset ((List.drop_sublist _ _).subset rest)
      exact (List.drop_sublist _ _).subset (List.mem_reverse.mp inRest)
  · exact mem

end Path

namespace Volume

open SchemaOrder.Path (IsPlain)

variable {volume before after : Volume} {start place found : List Text} {names : List Text}
  {path name : Text} {node : Option Node}

/-- A path to a name in a directory begins where the directory does. -/
theorem startOf_join (plain : IsPlain name) :
    volume.startOf (Path.join path name) = volume.startOf path := by
  unfold startOf Path.join
  rw [if_neg plain.head?_ne]
  cases path with
  | nil => simp [plain.head?_ne]
  | cons first others => split <;> rfl

/-- The place of the directory that a path leads to, if it leads to one. -/
def directoryAt? (volume : Volume) (path : Text) : Option (List Text) :=
  match volume.follow (volume.startOf path) (Path.components path) with
  | .ok (place, some .directory) => some place
  | _ => none

/-- A path leads to a directory if the walk along its names ends in one. -/
theorem directoryAt?_eq_some_iff : volume.directoryAt? path = some place ↔
    volume.follow (volume.startOf path) (Path.components path) = .ok (place, some .directory) := by
  unfold directoryAt?
  split <;> simp_all

/-- What names lead to where there is a directory behind all but the last one is one name further.
Names that stand for the directory itself or the one above are followed as well, so that the walk
is taken apart at its end. -/
theorem follow_concat_eq_ok_iff :
    volume.follow start (names ++ [name]) = .ok (found, node) ↔ ∃ place,
      volume.follow start names = .ok (place, some .directory) ∧
        volume.follow place [name] = .ok (found, node) := by
  induction names generalizing start with
  | nil =>
      rw [List.nil_append]
      constructor
      · intro followed
        have isDirectory : volume.at? start = some .directory := by
          rw [follow] at followed
          split at followed
          · cases followed
          · cases followed
          · assumption
        exact ⟨start, by rw [follow, isDirectory], followed⟩
      · rintro ⟨place, stays, followed⟩
        rw [follow, Except.ok.injEq, Prod.mk.injEq] at stays
        exact stays.1 ▸ followed
  | cons first others inductionHypothesis =>
      simp only [List.cons_append, follow.eq_2 volume start first]
      split
      · simp
      · simp
      · split_ifs
        · exact inductionHypothesis
        · exact inductionHypothesis
        · simp
        · exact inductionHypothesis

/-- A plain name in a directory leads to what stands there under it. -/
theorem follow_name_eq_ok_iff (plain : IsPlain name)
    (isDirectory : volume.at? place = some .directory) :
    volume.follow place [name] = .ok (found, node) ↔
      (Text.encodeLoosely name).length ≤ longestName ∧ found = place ++ [name] ∧
        node = volume.at? found := by
  simp only [follow, isDirectory, if_neg plain.notHere, if_neg plain.notUp]
  split
  · next long => simp [Nat.not_le_of_lt long]
  · next short =>
      rw [Except.ok.injEq, Prod.mk.injEq]
      constructor
      · rintro ⟨rfl, rfl⟩
        exact ⟨Nat.le_of_not_lt short, rfl, rfl⟩
      · rintro ⟨-, rfl, rfl⟩
        exact ⟨rfl, rfl⟩

/-- A path whose form the file system takes. -/
def IsUsable (path : Text) : Prop :=
  checkPath path = .ok () ∧ path.isEmpty = false ∧ (Text.encodeLoosely path).length < pathBound

/-- What a path inside a directory leads to stands in the directory under the last name. -/
theorem find_join_eq_ok_iff (plain : IsPlain name) :
    volume.find (Path.join path name) = .ok (found, node) ↔
      IsUsable (Path.join path name) ∧ (Text.encodeLoosely name).length ≤ longestName ∧
        ∃ place, volume.directoryAt? path = some place ∧ found = place ++ [name] ∧
          node = volume.at? found := by
  rw [find_eq_ok_iff, plain.components_join, startOf_join plain, follow_concat_eq_ok_iff]
  simp only [IsUsable, and_assoc, directoryAt?_eq_some_iff]
  refine and_congr_right fun _ => and_congr_right fun _ => and_congr_right fun _ => ?_
  constructor
  · rintro ⟨⟨place, leads, isThere⟩, -⟩
    obtain ⟨short, rfl, isAt⟩ :=
      (follow_name_eq_ok_iff plain (eq_at?_of_follow leads).symm).mp isThere
    exact ⟨short, place, leads, rfl, isAt⟩
  · rintro ⟨short, place, leads, rfl, isAt⟩
    exact ⟨⟨place, leads,
      (follow_name_eq_ok_iff plain (eq_at?_of_follow leads).symm).mpr ⟨short, rfl, isAt⟩⟩,
      fun _ _ => plain.getLast?_join_ne⟩

/-- A file is read through a path that leads to it. -/
theorem read_eq_ok_iff {content : Bytes} :
    volume.read path = .ok content ↔
      ∃ place, volume.find path = .ok (place, some (.file content)) := by
  rw [read, bind_eq_ok_iff]
  constructor
  · rintro ⟨⟨place, node⟩, isFound, given⟩
    split at given
    · next same =>
        cases same
        cases given
        exact ⟨_, isFound⟩
    · cases given
    · cases given
  · rintro ⟨place, isFound⟩
    exact ⟨_, isFound, rfl⟩

/-- There is a file at a place if one stands there. -/
theorem fileAt?_eq_some_iff {content : Bytes} :
    volume.fileAt? place = some content ↔ volume.at? place = some (.file content) := by
  unfold fileAt?
  split <;> simp_all

/-- What is read inside a directory is the file there under the last name. -/
theorem read_join_eq_ok_iff {content : Bytes} (plain : IsPlain name) :
    volume.read (Path.join path name) = .ok content ↔
      IsUsable (Path.join path name) ∧ (Text.encodeLoosely name).length ≤ longestName ∧
        ∃ place, volume.directoryAt? path = some place ∧
          volume.fileAt? (place ++ [name]) = some content := by
  rw [read_eq_ok_iff]
  simp only [find_join_eq_ok_iff plain, fileAt?_eq_some_iff]
  constructor
  · rintro ⟨_, usable, short, place, leads, rfl, isAt⟩
    exact ⟨usable, short, place, leads, isAt.symm⟩
  · rintro ⟨usable, short, place, leads, isAt⟩
    exact ⟨_, usable, short, place, leads, rfl, isAt.symm⟩

/-- What is read inside a directory of one volume is read in another one with the same directory
and the same file. -/
theorem read_join_of_fileAt? {content : Bytes} (plain : IsPlain name)
    (leadsBefore : before.directoryAt? path = some place)
    (leadsAfter : after.directoryAt? path = some place)
    (sameFile : after.fileAt? (place ++ [name]) = before.fileAt? (place ++ [name]))
    (isRead : after.read (Path.join path name) = .ok content) :
    before.read (Path.join path name) = .ok content := by
  obtain ⟨usable, short, other, leads, isAt⟩ := (read_join_eq_ok_iff plain).mp isRead
  obtain rfl := Option.some.inj (leadsAfter.symm.trans leads)
  exact (read_join_eq_ok_iff plain).mpr ⟨usable, short, place, leadsBefore, sameFile ▸ isAt⟩

namespace Keeps

variable {except : List Text → Prop}

/-- A directory that names lead to stays where it is. -/
theorem follow_directory (keeps : Keeps except before after)
    (followed : before.follow start names = .ok (place, some .directory)) :
    after.follow start names = .ok (place, some .directory) := by
  induction names generalizing start with
  | nil =>
      rw [follow, Except.ok.injEq, Prod.mk.injEq] at followed ⊢
      obtain ⟨rfl, isDirectory⟩ := followed
      exact ⟨rfl, keeps.directory _ isDirectory⟩
  | cons name rest inductionHypothesis =>
      rw [follow] at followed ⊢
      split at followed
      · cases followed
      · cases followed
      next isDirectory =>
      rw [keeps.directory _ isDirectory]
      simp only
      split_ifs at followed ⊢ <;> exact inductionHypothesis followed

/-- A path that leads to a directory still leads there. -/
theorem directoryAt? (keeps : Keeps except before after)
    (leads : before.directoryAt? path = some place) : after.directoryAt? path = some place := by
  have sameStart : after.startOf path = before.startOf path := by
    rw [startOf, startOf, keeps.current]
  rw [directoryAt?_eq_some_iff] at leads ⊢
  rw [sameStart]
  exact keeps.follow_directory leads

end Keeps

/-- A volume none of whose names has a separator. -/
structure IsNamed (volume : Volume) : Prop where
  current : ∀ name ∈ volume.current, Path.separator ∉ name
  nodes : ∀ entry ∈ volume.nodes, ∀ name ∈ entry.1, Path.separator ∉ name

namespace IsNamed

/-- What is followed from such names by such names leads to such names. -/
theorem follow (namesWhole : ∀ name ∈ names, Path.separator ∉ name)
    (startWhole : ∀ name ∈ start, Path.separator ∉ name)
    (followed : volume.follow start names = .ok (found, node)) :
    ∀ name ∈ found, Path.separator ∉ name := by
  induction names generalizing start with
  | nil =>
      cases followed
      exact startWhole
  | cons first others inductionHypothesis =>
      obtain ⟨firstWhole, othersWhole⟩ := List.forall_mem_cons.mp namesWhole
      rw [Volume.follow] at followed
      split at followed
      · cases followed
      · cases followed
      split_ifs at followed
      · exact inductionHypothesis othersWhole startWhole followed
      · exact inductionHypothesis othersWhole
          (fun name mem => startWhole name (List.dropLast_subset start mem)) followed
      · refine inductionHypothesis othersWhole ?_ followed
        rintro name mem
        rcases List.mem_append.mp mem with inStart | isFirst
        · exact startWhole name inStart
        · exact List.mem_singleton.mp isFirst ▸ firstWhole

/-- A path leads to such names. -/
theorem find (named : volume.IsNamed) (isFound : volume.find path = .ok (found, node)) :
    ∀ name ∈ found, Path.separator ∉ name := by
  refine follow (fun _ => Path.notMem_of_mem_components) ?_ (find_eq_ok_iff.mp isFound).2.2.2.1
  unfold startOf
  split
  · exact List.forall_mem_nil _
  · exact named.current

/-- Something is put at a place with such names. -/
theorem put (named : volume.IsNamed) (whole : ∀ name ∈ place, Path.separator ∉ name)
    (node : Node) : (volume.put place node).IsNamed := by
  refine ⟨named.current, fun entry mem => ?_⟩
  rcases List.mem_append.mp mem with kept | added
  · exact named.nodes entry (List.mem_filter.mp kept).1
  · rw [List.mem_singleton.mp added]
    exact whole

/-- A directory is made under such names. -/
theorem makeDirectory (named : volume.IsNamed) (made : volume.makeDirectory path = .ok after) :
    after.IsNamed := by
  obtain ⟨-, -, rest⟩ := bind_eq_ok_iff.mp made
  split at rest
  · cases rest
  · cases rest
  · cases rest
  · next isFound =>
      cases rest
      exact named.put (named.find isFound) .directory

/-- So is one with all that lead to it. -/
theorem makeDirectories (named : volume.IsNamed) (path : Text) :
    (volume.makeDirectories path).1.IsNamed :=
  makeDirectories_induction IsNamed named (fun named made => named.makeDirectory made) path

/-- The names in a directory have no separators. -/
theorem list (named : volume.IsNamed) {listed : List Text}
    (isList : volume.list path = .ok listed) : ∀ name ∈ listed, Path.separator ∉ name := by
  obtain ⟨⟨place, node⟩, -, given⟩ := bind_eq_ok_iff.mp isList
  split at given
  · cases given
  · cases given
  · cases given
    intro name mem
    obtain ⟨entry, entryMem, isName⟩ := List.mem_filterMap.mp mem
    split at isName
    · exact named.nodes entry entryMem name (List.mem_of_getLast? isName)
    · cases isName

end IsNamed

end Volume

end SchemaOrder
