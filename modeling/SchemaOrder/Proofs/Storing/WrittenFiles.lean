import Mathlib.Tactic.SplitIfs
import SchemaOrder.Proofs.Document.Lines
import SchemaOrder.Proofs.Outcome
import SchemaOrder.Storage.Source

/-!
# What is read of a written file

A text that is encoded is decoded as it was, code point by code point, and its line ends are left
alone if they are line feeds. A file that was written is found where it was written, since nothing
on the way to it has changed. `fileText_of_write` puts the two together.
-/

namespace SchemaOrder

open CodePoint (ofChar)

namespace Text

/-- A number that fits a byte is kept by it. -/
theorem toNat_byte {number : Nat} (fits : number < 256) : (UInt8.ofNat number).toNat = number := by
  rw [UInt8.toNat_ofNat']
  exact Nat.mod_eq_of_lt fits

/-- A byte that begins a form of several bytes is kept until the others are there. -/
theorem decodeFrom_start {byte : UInt8} {size value : Nat}
    (starts : startOfForm? byte = some (size + 2, value)) (position : Nat) (rest : Bytes) :
    decodeFrom position none (byte :: rest) =
      decodeFrom (position + 1) (some ⟨byte, 1, size + 1, value⟩) rest := by
  rw [decodeFrom, starts]
  rfl

section Continued

variable {first byte : UInt8} {seen more value : Nat}

/-- The second byte of a form that has more. -/
theorem decodeFrom_second (follows : mayFollow first byte = true) (position : Nat) (rest : Bytes) :
    decodeFrom position (some ⟨first, 1, more + 2, value⟩) (byte :: rest) =
      decodeFrom (position + 1)
        (some ⟨first, 2, more + 1, value * 0x40 + (byte.toNat - 0x80)⟩) rest := by
  have several : ¬ more + 2 ≤ 1 := by omega
  simp only [decodeFrom, follows, several, Bool.not_true, Bool.false_eq_true, if_true, if_false]
  rfl

/-- A later byte of a form that has more. -/
theorem decodeFrom_later (trailing : isTrailing byte = true) (position : Nat) (rest : Bytes) :
    decodeFrom position (some ⟨first, seen + 2, more + 2, value⟩) (byte :: rest) =
      decodeFrom (position + 1)
        (some ⟨first, seen + 3, more + 1, value * 0x40 + (byte.toNat - 0x80)⟩) rest := by
  have several : ¬ more + 2 ≤ 1 := by omega
  have notSecond : ¬ seen + 2 = 1 := by omega
  simp only [decodeFrom, trailing, several, notSecond, Bool.not_true, Bool.false_eq_true, if_false]
  rfl

/-- The second byte of a form of two. -/
theorem decodeFrom_endSecond (follows : mayFollow first byte = true) (position : Nat)
    (rest : Bytes) :
    decodeFrom position (some ⟨first, 1, 1, value⟩) (byte :: rest) =
      (decodeFrom (position + 1) none rest).map
        (CodePoint.ofNat (value * 0x40 + (byte.toNat - 0x80)) :: ·) := by
  simp only [decodeFrom, follows, Nat.le_refl, Bool.not_true, Bool.false_eq_true, if_true, if_false]

/-- The last byte of a longer form. -/
theorem decodeFrom_endLater (trailing : isTrailing byte = true) (position : Nat) (rest : Bytes) :
    decodeFrom position (some ⟨first, seen + 2, 1, value⟩) (byte :: rest) =
      (decodeFrom (position + 1) none rest).map
        (CodePoint.ofNat (value * 0x40 + (byte.toNat - 0x80)) :: ·) := by
  have notSecond : ¬ seen + 2 = 1 := by omega
  simp only [decodeFrom, trailing, notSecond, Nat.le_refl, Bool.not_true, Bool.false_eq_true,
    if_true, if_false]

end Continued

/-- The bytes behind the first one of a form hold six bits each. -/
theorem isTrailing_byte {number : Nat} (small : number < 0x40) :
    (UInt8.ofNat (0x80 + number)).toNat = 0x80 + number ∧
      isTrailing (UInt8.ofNat (0x80 + number)) = true := by
  have kept := toNat_byte (show 0x80 + number < 256 by omega)
  refine ⟨kept, ?_⟩
  simp only [isTrailing, kept, Bool.and_eq_true, decide_eq_true_eq]
  omega

/-- Six bits may stand behind a first byte, if they do not make a form that is too long, a surrogate
or a number that is too great. -/
theorem mayFollow_byte {first : UInt8} {lead number : Nat} (kept : first.toNat = lead)
    (small : number < 0x40) (notLong : lead = 0xE0 → 0x20 ≤ number)
    (notSurrogate : lead = 0xED → number < 0x20) (notLonger : lead = 0xF0 → 0x10 ≤ number)
    (notGreat : lead = 0xF4 → number < 0x10) :
    mayFollow first (UInt8.ofNat (0x80 + number)) = true := by
  unfold mayFollow
  simp only [kept, (isTrailing_byte small).1]
  split_ifs
  all_goals
    simp only [Bool.and_eq_true, decide_eq_true_eq]
    omega

/-- The first byte of a form of two bytes says the bits that are above the other one. -/
theorem startOfForm?_two {number : Nat} (notLong : 2 ≤ number) (small : number < 0x20) :
    startOfForm? (UInt8.ofNat (0xC0 + number)) = some (0 + 2, number) := by
  unfold startOfForm?
  simp only [toNat_byte (show 0xC0 + number < 256 by omega)]
  rw [if_neg (by omega), if_neg (by omega), if_pos (by omega)]
  simp

/-- The first byte of a form of three bytes says the bits that are above the others. -/
theorem startOfForm?_three {number : Nat} (small : number < 0x10) :
    startOfForm? (UInt8.ofNat (0xE0 + number)) = some (1 + 2, number) := by
  unfold startOfForm?
  simp only [toNat_byte (show 0xE0 + number < 256 by omega)]
  rw [if_neg (by omega), if_neg (by omega), if_neg (by omega), if_pos (by omega)]
  simp

/-- The first byte of a form of four bytes says the bits that are above the others. -/
theorem startOfForm?_four {number : Nat} (small : number < 5) :
    startOfForm? (UInt8.ofNat (0xF0 + number)) = some (2 + 2, number) := by
  unfold startOfForm?
  simp only [toNat_byte (show 0xF0 + number < 256 by omega)]
  rw [if_neg (by omega), if_neg (by omega), if_neg (by omega), if_neg (by omega),
    if_pos (by omega)]
  simp

/-- A code point that is no surrogate is decoded from its bytes. -/
theorem decodeFrom_encodeCodePoint {codePoint : CodePoint}
    (notSurrogate : codePoint.isSurrogate = false) (position : Nat) (rest : Bytes) :
    ∃ next, decodeFrom position none (encodeCodePoint codePoint ++ rest) =
      (decodeFrom next none rest).map (codePoint :: ·) := by
  obtain ⟨value, inRange⟩ := codePoint
  have notWithin : ¬ (0xD800 ≤ value ∧ value ≤ 0xDFFF) := by
    simp only [CodePoint.isSurrogate, CodePoint.isHighSurrogate, CodePoint.isLowSurrogate,
      Bool.or_eq_false_iff, Bool.and_eq_false_iff, decide_eq_false_iff_not] at notSurrogate
    omega
  have same : ∀ {number}, number = value → CodePoint.ofNat number = ⟨value, inRange⟩ := by
    rintro _ rfl
    exact CodePoint.ext (CodePoint.value_ofNat inRange)
  have powers : Nat.pow 2 0 = 1 ∧ Nat.pow 2 6 = 0x40 ∧ Nat.pow 2 12 = 0x1000 := by decide
  obtain ⟨lastKept, lastTrails⟩ := isTrailing_byte (Nat.mod_lt value (show 0 < 0x40 by decide))
  obtain ⟨middleKept, middleTrails⟩ :=
    isTrailing_byte (Nat.mod_lt (value / 0x40) (show 0 < 0x40 by decide))
  obtain ⟨highKept, highTrails⟩ :=
    isTrailing_byte (Nat.mod_lt (value / 0x1000) (show 0 < 0x40 by decide))
  simp only [encodeCodePoint, powers, Nat.div_one]
  split_ifs with one two three
  · have kept := toNat_byte (show value < 256 by omega)
    refine ⟨position + 1, ?_⟩
    simp only [List.singleton_append, decodeFrom, startOfForm?, kept, one, if_true, same rfl]
  · have kept := toNat_byte (show 0xC0 + value / 0x40 < 256 by omega)
    have starts := startOfForm?_two (show 2 ≤ value / 0x40 by omega) (by omega)
    have follows : mayFollow (UInt8.ofNat (0xC0 + value / 0x40))
        (UInt8.ofNat (0x80 + value % 0x40)) = true := by
      apply mayFollow_byte kept <;> omega
    refine ⟨position + 2, (decodeFrom_start starts _ _).trans ?_⟩
    refine (decodeFrom_endSecond follows _ _).trans ?_
    simp only [lastKept]
    rw [same (by omega)]
    rfl
  · have kept := toNat_byte (show 0xE0 + value / 0x1000 < 256 by omega)
    have starts := startOfForm?_three (show value / 0x1000 < 0x10 by omega)
    have follows : mayFollow (UInt8.ofNat (0xE0 + value / 0x1000))
        (UInt8.ofNat (0x80 + value / 0x40 % 0x40)) = true := by
      apply mayFollow_byte kept <;> omega
    refine ⟨position + 3, (decodeFrom_start starts _ _).trans ?_⟩
    refine (decodeFrom_second follows _ _).trans ?_
    refine (decodeFrom_endLater lastTrails _ _).trans ?_
    simp only [middleKept, lastKept]
    rw [same (by omega)]
    rfl
  · have kept := toNat_byte (show 0xF0 + value / 0x40000 < 256 by omega)
    have starts := startOfForm?_four (show value / 0x40000 < 5 by omega)
    have follows : mayFollow (UInt8.ofNat (0xF0 + value / 0x40000))
        (UInt8.ofNat (0x80 + value / 0x1000 % 0x40)) = true := by
      apply mayFollow_byte kept <;> omega
    refine ⟨position + 4, (decodeFrom_start starts _ _).trans ?_⟩
    refine (decodeFrom_second follows _ _).trans ?_
    refine (decodeFrom_later middleTrails _ _).trans ?_
    refine (decodeFrom_endLater lastTrails _ _).trans ?_
    simp only [highKept, middleKept, lastKept]
    rw [same (by omega)]
    rfl

/-- A text has no run of surrogates if none of its code points is one. -/
theorem firstSurrogates_eq_none_iff {text : Text} {position : Nat} :
    firstSurrogates position text = none ↔ ∀ codePoint ∈ text, codePoint.isSurrogate = false := by
  induction text generalizing position with
  | nil => exact ⟨nofun, fun _ => rfl⟩
  | cons first others inductionHypothesis =>
      rw [firstSurrogates, List.forall_mem_cons]
      split
      · next surrogate => simp [surrogate]
      · next notSurrogate => simp [notSurrogate, inductionHypothesis]

/-- A text without UTF-8 has a surrogate. -/
theorem exists_surrogate_of_encode {text : Text} {reason : EncodingFault}
    (noForm : text.encode = .error reason) : ∃ codePoint ∈ text, codePoint.isSurrogate = true := by
  by_contra noSurrogate
  have none : firstSurrogates 0 text = none := by
    rw [firstSurrogates_eq_none_iff]
    intro codePoint mem
    exact Bool.eq_false_iff.mpr fun surrogate => noSurrogate ⟨codePoint, mem, surrogate⟩
  rw [encode, none] at noForm
  cases noForm

/-- A text that was encoded is decoded as it was. -/
theorem decode_encode {text : Text} {content : Bytes} (encoded : text.encode = .ok content) :
    decode content = .ok text := by
  have decoded : ∀ (text : Text), (∀ codePoint ∈ text, codePoint.isSurrogate = false) →
      ∀ position, decodeFrom position none (encodeLoosely text) = .ok text := by
    intro text
    induction text with
    | nil => exact fun _ _ => rfl
    | cons first others inductionHypothesis =>
        intro scalars position
        obtain ⟨notSurrogate, scalars⟩ := List.forall_mem_cons.mp scalars
        obtain ⟨next, step⟩ := decodeFrom_encodeCodePoint notSurrogate position
          (encodeLoosely others)
        have whole : encodeLoosely (first :: others) =
            encodeCodePoint first ++ encodeLoosely others := List.flatMap_cons
        rw [whole, step, inductionHypothesis scalars]
        rfl
  unfold encode at encoded
  split at encoded
  · cases encoded
  next none =>
  rw [← Except.ok.inj encoded]
  exact decoded text (firstSurrogates_eq_none_iff.mp none) 0

/-- A text whose lines end at line feeds alone is read from a file as it was. -/
theorem ofFile_encode {text : Text} {content : Bytes} (noReturn : ofChar '\r' ∉ text)
    (encoded : text.encode = .ok content) : ofFile content = .ok text := by
  rw [ofFile, decode_encode encoded, Except.map, unifyLineEnds, lines_eq_splitOn noReturn,
    join_splitOn]

end Text

namespace Volume

variable {volume : Volume} {place : List Text} {content : Bytes}

/-- Somewhere else nothing changes. -/
theorem at?_put_of_ne {node : Node} {other : List Text} (different : other ≠ place) :
    (volume.put place node).at? other = volume.at? other := by
  have elsewhere : (volume.nodes.filter (fun entry => entry.1 ≠ place) ++
      [(place, node)]).find? (fun entry => entry.1 = other) =
        volume.nodes.find? fun entry => entry.1 = other := by
    rw [List.find?_append, List.find?_filter]
    have kept : (fun entry : List Text × Node => decide (decide (entry.1 ≠ place) = true ∧
        decide (entry.1 = other) = true)) = fun entry => decide (entry.1 = other) := by
      funext entry
      by_cases same : entry.1 = other <;> simp [same, different]
    rw [kept]
    simp [Ne.symm different]
  simp only [at?, put, elsewhere]

/-- What was put at a place is there, unless it is on the way to the current directory. -/
theorem at?_put_self {node : Node} (free : place.isPrefixOf volume.current = false) :
    (volume.put place node).at? place = some node := by
  have found : (volume.nodes.filter (fun entry => entry.1 ≠ place) ++
      [(place, node)]).find? (fun entry => entry.1 = place) = some (place, node) := by
    rw [List.find?_append, List.find?_eq_none.mpr]
    · simp
    · intro entry mem
      simpa using (List.mem_filter.mp mem).2
  simp only [at?, put, free, found, Bool.false_eq_true, if_false, Option.map_some]

/-- What a path leads to stands where it leads. -/
theorem eq_at?_of_follow {start found : List Text} {names : List Text} {node : Option Node}
    (followed : volume.follow start names = .ok (found, node)) : node = volume.at? found := by
  induction names generalizing start with
  | nil =>
      cases followed
      rfl
  | cons name rest inductionHypothesis =>
      rw [follow] at followed
      split at followed
      · cases followed
      · cases followed
      · split at followed
        · exact inductionHypothesis followed
        split at followed
        · exact inductionHypothesis followed
        split at followed
        · cases followed
        · exact inductionHypothesis followed

/-- What leads to a place without a directory leads there still after a file was put there: all
that is passed on the way are directories. -/
theorem follow_put {start found : List Text} {names : List Text} {before : Option Node}
    (followed : volume.follow start names = .ok (found, before))
    (noDirectory : before ≠ some .directory) :
    (volume.put found (.file content)).follow start names = .ok (found, some (.file content)) := by
  have isAt := eq_at?_of_follow followed
  have free : found.isPrefixOf volume.current = false := by
    rw [Bool.eq_false_iff]
    intro leads
    rw [isAt, at?, if_pos leads] at noDirectory
    exact noDirectory rfl
  induction names generalizing start with
  | nil =>
      cases followed
      rw [follow, at?_put_self free]
  | cons name rest inductionHypothesis =>
      rw [follow] at followed
      split at followed
      · cases followed
      · cases followed
      next isDirectory =>
      have different : start ≠ found := by
        rintro rfl
        exact noDirectory (isAt.trans isDirectory)
      rw [follow, at?_put_of_ne different, isDirectory]
      simp only
      split at followed
      · next isSame =>
          rw [if_pos isSame]
          exact inductionHypothesis followed
      next notSame =>
      rw [if_neg notSame]
      split at followed
      · next isUp =>
          rw [if_pos isUp]
          exact inductionHypothesis followed
      next notUp =>
      rw [if_neg notUp]
      split at followed
      · cases followed
      next notLong =>
        rw [if_neg notLong]
        exact inductionHypothesis followed

/-- Where a path leads to: it is followed, and ends in no separator where it leads to a file. -/
theorem find_eq_ok_iff {path : Text} {found : List Text} {node : Option Node} :
    volume.find path = .ok (found, node) ↔ checkPath path = .ok () ∧ path.isEmpty = false ∧
      (Text.encodeLoosely path).length < pathBound ∧
      volume.follow (volume.startOf path) (Path.components path) = .ok (found, node) ∧
      ∀ content, node = some (.file content) → path.getLast? ≠ some Path.separator := by
  have unit : ∀ {holds : Prop}, (∃ checked : Unit, checkPath path = .ok checked ∧ holds) ↔
      checkPath path = .ok () ∧ holds := ⟨fun ⟨_, both⟩ => both, fun both => ⟨(), both⟩⟩
  rw [find, Outcome.bind_eq_ok_iff, unit]
  refine and_congr_right fun _ => ?_
  cases path.isEmpty with
  | true => simp
  | false =>
      by_cases long : pathBound ≤ (Text.encodeLoosely path).length
      · simp [long, Nat.not_lt_of_le long]
      · simp only [Bool.false_eq_true, if_false, if_neg long, true_and, Nat.lt_of_not_le long]
        split
        · next refused => simp [refused]
        · next place content followed =>
            by_cases marked : path.getLast? = some Path.separator
            · simp only [marked, followed, if_true]
              constructor
              · nofun
              · rintro ⟨same, unmarked⟩
                cases same
                exact absurd rfl (unmarked content rfl)
            · simp [marked, followed, Outcome.pure_eq_ok_iff]
        · next found' notFile followed =>
            rw [Outcome.pure_eq_ok_iff, followed, Except.ok.injEq]
            refine ⟨?_, fun both => both.1⟩
            rintro rfl
            exact ⟨rfl, fun content isFile => absurd (congrArg (found, ·) isFile) (notFile _ _)⟩

/-- The place of a file to be written is where its path leads to, unless that is a directory. -/
theorem find_of_placeToWrite {path : Text} (isPlace : volume.placeToWrite path = .ok place) :
    ∃ before, volume.find path = .ok (place, before) ∧ before ≠ some .directory ∧
      path.getLast? ≠ some Path.separator := by
  obtain ⟨-, -, rest⟩ := Outcome.bind_eq_ok_iff.mp isPlace
  cases outcome : volume.find path with
  | error fault =>
      rw [outcome] at rest
      cases fault with
      | refused refusal => cases refusal <;> cases rest
      | _ => cases rest
  | ok result =>
      rw [outcome] at rest
      match result, rest with
      | (other, some (.file content)), rest =>
          cases rest
          exact ⟨_, rfl, nofun, (find_eq_ok_iff.mp outcome).2.2.2.2 content rfl⟩
      | (other, none), rest =>
          dsimp only at rest
          split at rest
          · cases rest
          next unmarked =>
            cases rest
            exact ⟨none, rfl, nofun, by simpa using unmarked⟩

/-- A path leads to the file that was put where it is to be written. -/
theorem find_put {path : Text} (isPlace : volume.placeToWrite path = .ok place) :
    (volume.put place (.file content)).find path = .ok (place, some (.file content)) := by
  obtain ⟨before, isFound, noDirectory, unmarked⟩ := find_of_placeToWrite isPlace
  obtain ⟨isPath, nonempty, short, followed, -⟩ := find_eq_ok_iff.mp isFound
  exact find_eq_ok_iff.mpr ⟨isPath, nonempty, short, follow_put followed noDirectory,
    fun _ _ => unmarked⟩

/-- What was written to a file is read from it. -/
theorem read_of_write {path : Text} {after : Volume}
    (written : volume.write path content = .ok after) : after.read path = .ok content := by
  obtain ⟨place, isPlace, rest⟩ := Outcome.bind_eq_ok_iff.mp written
  cases rest
  rw [read, find_put isPlace]
  rfl

end Volume

/-- A text that was encoded and written to a file is read from the file as it was, if its lines end
at line feeds alone. -/
theorem Source.fileText_of_write {volume after : Volume} {path text : Text} {content : Bytes}
    (noReturn : ofChar '\r' ∉ text) (encoded : text.encode = .ok content)
    (written : volume.write path content = .ok after) : fileText after path = .ok text := by
  rw [fileText, Volume.read_of_write written]
  change (Text.ofFile content).mapError Fault.decoding = _
  rw [Text.ofFile_encode noReturn encoded]
  rfl

end SchemaOrder
