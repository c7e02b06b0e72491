import SchemaOrder.Order.AsciiCollation
import SchemaOrder.Proofs.Command.Tasks
import SchemaOrder.Proofs.Sorting.CheckAgreement
import SchemaOrder.Proofs.Sorting.Untampered
import SchemaOrder.Proofs.Storing.KeptFiles

/-!
# Results of conversions and the files they are stored in

A conversion renders a text without touching a file and then stores it. Storing changes one file at
most, and if it fails it changes none, unless the text has no UTF-8: then the file is emptied before
that is found out. `convert_failure_keeps_files` says so of a conversion that fails for whatever
reason.
-/

namespace SchemaOrder

open Outcome

/-- The text that a conversion gives, by the files as they are. -/
def Conversion.text (collation : Collation) (conversion : Conversion) (volume : Volume) :
    Except Fault Text := do
  let schema ← (Source.namedFormat conversion.input conversion.inputFormat).read volume
  let sorted ← (conversion.options.order collation).mapError .options >>= schema.sorted
  sorted.write conversion.outputFormat

namespace Task

variable {α β : Type} {desk after : Desk} {collation : Collation} {conversion : Conversion}

/-- A sequence of two tasks fails where the first one does, or the second one after it. -/
theorem bind_eq_error_iff {first : Task α} {next : α → Task β} {fault : Fault} :
    (first >>= next) desk = (.error fault, after) ↔ first desk = (.error fault, after) ∨
      ∃ middle between, first desk = (.ok middle, between) ∧
        next middle between = (.error fault, after) := by
  rw [bind_apply]
  rcases first desk with ⟨_ | middle, between⟩
  · constructor
    · rintro ⟨⟩
      exact .inl rfl
    · rintro (⟨⟨⟩⟩ | ⟨_, _, ⟨⟩, -⟩)
      rfl
  · constructor
    · exact fun failed => .inr ⟨middle, between, rfl, failed⟩
    · rintro (⟨⟨⟩⟩ | ⟨_, _, ⟨⟩, failed⟩)
      exact failed

/-- A task that leaves the files as they are does so when it fails. -/
theorem Looks.of_error {task : Task α} {outcome : Except Fault α} {fault : Fault}
    (looks : Looks task desk outcome) (ran : task desk = (.error fault, after)) :
    outcome = .error fault ∧ after.volume = desk.volume := by
  obtain ⟨rfl, sameVolume⟩ := looks
  rw [ran] at sameVolume ⊢
  exact ⟨rfl, sameVolume⟩

/-- The part of a conversion that works out its text. -/
def render (collation : Collation) (conversion : Conversion) : Task Text := do
  let schema ← load conversion.input conversion.inputFormat
  let sorted ← sort collation conversion.options schema
  ofExcept (sorted.write conversion.outputFormat)

/-- The part of a conversion that stores a text in a file. -/
def store (output text : Text) : Task Unit := do
  let directory := Path.directory output
  makeDirectories (if directory.isEmpty then "." else directory)
  writeFile output text
  note .debug .program ("Wrote " ++ output)

/-- A conversion without an output renders its text. -/
theorem convert_of_noOutput (noOutput : (conversion.output.getD []).isEmpty = true) :
    convert collation conversion = render collation conversion := by
  unfold convert render
  simp only [noOutput, Bool.not_true, Bool.false_eq_true, if_false, bind_pure]

/-- A conversion with an output renders its text and stores it. -/
theorem convert_of_output (output : (conversion.output.getD []).isEmpty = false) :
    convert collation conversion = (do
      let text ← render collation conversion
      store (conversion.output.getD []) text
      pure text) := by
  unfold convert render store
  simp only [output, Bool.not_false, if_true, bind_assoc]

/-- The text of a conversion is rendered. -/
theorem render_looks : Looks (render collation conversion) desk
    (conversion.text collation desk.volume) := by
  refine (load_looks _ _).bind fun schema _ _ _ => ?_
  exact (sort_looks _ _).bind fun sorted _ _ _ => .ofExcept _

/-- A conversion without an output gives its text. -/
theorem convert_of_text {text : Text} (noOutput : (conversion.output.getD []).isEmpty = true)
    (isText : conversion.text collation desk.volume = .ok text) :
    ∃ after, convert collation conversion desk = (.ok text, after) := by
  have renders : Looks (render collation conversion) desk (.ok text) := isText ▸ render_looks
  obtain ⟨after, rendered, -⟩ := renders.exists_ok
  exact ⟨after, convert_of_noOutput noOutput ▸ rendered⟩

/-- Nothing is printed when a file is converted. -/
theorem convert_isSilent (collation : Collation) (conversion : Conversion) :
    IsSilent (convert collation conversion) := by
  have renders : IsSilent (render collation conversion) :=
    .bind (load_isSilent _ _) fun _ => .bind (sort_isSilent _ _) fun _ => .ofExcept _
  have makes (path : Text) : IsSilent (makeDirectories path) :=
    .bind .volume fun _ => .bind (.setVolume _) fun _ => .ofExcept _
  have writes (path text : Text) : IsSilent (writeFile path text) :=
    .bind .volume fun _ => .bind (.ofExcept _) fun _ => .bind (.setVolume _) fun _ =>
      .bind (.ofExcept _) fun _ => .bind (.ofExcept _) fun _ => .setVolume _
  cases hasOutput : (conversion.output.getD []).isEmpty with
  | true => rwa [convert_of_noOutput hasOutput]
  | false =>
      rw [convert_of_output hasOutput]
      exact renders.bind fun text => .bind (.bind (makes _) fun _ => .bind (writes _ text) fun _ =>
        .note _ _ _) fun _ => .pure text

/-- A text that is stored is what its file holds, and no other file is changed. -/
theorem store_eq_ok {output text : Text} {done : Unit}
    (stored : store output text desk = (.ok done, after)) : ∃ place content,
      text.encode = .ok content ∧ after.volume.find output = .ok (place, some (.file content)) ∧
        desk.volume.Keeps (· = place) after.volume := by
  simp only [store, bind_eq_ok_iff, makeDirectories_eq_ok_iff, writeFile_eq_ok_iff] at stored
  obtain ⟨_, _, ⟨made, isMade, rfl⟩, _, _, ⟨emptied, content, written, isEmptied, encoded,
    isWritten, rfl⟩, noted⟩ := stored
  cases noted
  have makes := Volume.makeDirectories_keeps desk.volume
    (if (Path.directory output).isEmpty then "." else Path.directory output)
  rw [isMade] at makes
  obtain ⟨place, isPlace, empties, -⟩ := Volume.write_keeps isEmptied
  obtain ⟨other, isOther, writes, found⟩ := Volume.write_keeps isWritten
  obtain rfl := Except.ok.inj ((Volume.placeToWrite_of_write isPlace isEmptied).symm.trans isOther)
  exact ⟨place, content, encoded, found,
    ((makes.imp nofun).trans empties).trans writes⟩

/-- What writing a file does, step by step. -/
theorem writeFile_apply (path text : Text) (desk : Desk) : writeFile path text desk =
    match desk.volume.write path [] with
    | .error refused => (.error (.file refused), desk)
    | .ok emptied => match text.encode with
      | .error reason => (.error (.encoding reason), { desk with volume := emptied })
      | .ok content => match emptied.write path content with
        | .error refused => (.error (.file refused), { desk with volume := emptied })
        | .ok written => (.ok (), { desk with volume := written }) := by
  simp only [writeFile, bind_apply, Task.volume, ofExcept]
  cases desk.volume.write path [] with
  | error refused => rfl
  | ok emptied =>
      cases text.encode with
      | error reason => rfl
      | ok content =>
          simp only [setVolume, Except.mapError]
          cases emptied.write path content <;> rfl

/-- A text that is not written changes nothing, unless it has no UTF-8: then its file is emptied.
Writing the file a second time cannot fail, since it could be emptied. -/
theorem writeFile_eq_error {path text : Text} {fault : Fault}
    (failed : writeFile path text desk = (.error fault, after)) :
    after.volume = desk.volume ∨ ∃ reason, text.encode = .error reason ∧
      fault = .encoding reason ∧ desk.volume.write path [] = .ok after.volume := by
  rw [writeFile_apply] at failed
  cases isEmptied : desk.volume.write path [] with
  | error refused =>
      rw [isEmptied] at failed
      cases failed
      exact .inl rfl
  | ok emptied =>
      rw [isEmptied] at failed
      cases encoded : text.encode with
      | error reason =>
          rw [encoded] at failed
          cases failed
          exact .inr ⟨reason, rfl, rfl, rfl⟩
      | ok content =>
          obtain ⟨place, isPlace, -, -⟩ := Volume.write_keeps isEmptied
          have rewrites : emptied.write path content = .ok (emptied.put place (.file content)) := by
            rw [Volume.write, Volume.placeToWrite_of_write isPlace isEmptied]
            rfl
          rw [encoded] at failed
          simp only [rewrites] at failed
          cases failed

/-- A text that is not stored changes no file, unless it has no UTF-8: then its file is emptied. -/
theorem store_eq_error {output text : Text} {fault : Fault}
    (failed : store output text desk = (.error fault, after)) :
    desk.volume.Keeps Volume.nowhere after.volume ∨ ∃ place reason,
      text.encode = .error reason ∧ fault = .encoding reason ∧
        after.volume.find output = .ok (place, some (.file [])) ∧
          desk.volume.Keeps (· = place) after.volume := by
  have makes := Volume.makeDirectories_keeps desk.volume
    (if (Path.directory output).isEmpty then "." else Path.directory output)
  rcases bind_eq_error_iff.mp failed with refused | ⟨_, between, isMade, failed⟩
  · have sameVolume : _ = after.volume := congrArg (·.2.volume) refused
    exact .inl (sameVolume ▸ makes)
  obtain ⟨made, sameMade, rfl⟩ := makeDirectories_eq_ok_iff.mp isMade
  rw [sameMade] at makes
  rcases bind_eq_error_iff.mp failed with refused | ⟨_, _, -, noted⟩
  · rcases writeFile_eq_error refused with sameVolume | ⟨reason, noForm, isReason, isEmptied⟩
    · exact .inl (sameVolume ▸ makes)
    · obtain ⟨place, -, empties, found⟩ := Volume.write_keeps isEmptied
      exact .inr ⟨place, reason, noForm, isReason, found, (makes.imp nofun).trans empties⟩
  · cases noted

/-- A conversion with an output that gives a text has stored it. -/
theorem convert_eq_ok {output text : Text} (isOutput : conversion.output = some output)
    (nonempty : output.isEmpty = false)
    (converted : convert collation conversion desk = (.ok text, after)) :
    conversion.text collation desk.volume = .ok text ∧ ∃ place content,
      text.encode = .ok content ∧ after.volume.find output = .ok (place, some (.file content)) ∧
        desk.volume.Keeps (· = place) after.volume := by
  have hasOutput : (conversion.output.getD []).isEmpty = false := by rwa [isOutput]
  rw [convert_of_output hasOutput, isOutput, Option.getD_some, bind_eq_ok_iff] at converted
  obtain ⟨rendered, middle, isRendered, rest⟩ := converted
  obtain ⟨⟨⟩, stored, isStored, ended⟩ := bind_eq_ok_iff.mp rest
  cases ended
  obtain ⟨isText, sameVolume⟩ := render_looks.of_ok isRendered
  obtain ⟨place, content, encoded, found, keeps⟩ := store_eq_ok isStored
  exact ⟨isText, place, content, encoded, found, sameVolume ▸ keeps⟩

/-- A text without UTF-8 that is to be stored leaves its file empty. -/
theorem store_of_noForm {output text : Text} {made emptied : Volume} {reason : Text.EncodingFault}
    (isMade : desk.volume.makeDirectories (if (Path.directory output).isEmpty then "."
      else Path.directory output) = (made, .ok ())) (isEmptied : made.write output [] = .ok emptied)
    (noForm : text.encode = .error reason) :
    store output text desk = (.error (.encoding reason), { desk with volume := emptied }) := by
  have makes : makeDirectories (if (Path.directory output).isEmpty then "."
      else Path.directory output) desk = (.ok (), { desk with volume := made }) :=
    makeDirectories_eq_ok_iff.mpr ⟨made, isMade, rfl⟩
  refine bind_eq_error_iff.mpr (.inr ⟨(), _, makes, bind_eq_error_iff.mpr (.inl ?_)⟩)
  rw [writeFile_apply]
  simp only [isEmptied, noForm]

/-- A conversion that fails keeps all files, unless its text is there and has no UTF-8: then the
file for the text is empty. -/
theorem convert_eq_error {fault : Fault}
    (failed : convert collation conversion desk = (.error fault, after)) :
    desk.volume.Keeps Volume.nowhere after.volume ∨
      ∃ output text reason place, conversion.output = some output ∧
        conversion.text collation desk.volume = .ok text ∧ text.encode = .error reason ∧
        fault = .encoding reason ∧ after.volume.find output = .ok (place, some (.file [])) ∧
        desk.volume.Keeps (· = place) after.volume := by
  cases hasOutput : (conversion.output.getD []).isEmpty with
  | true =>
      rw [convert_of_noOutput hasOutput] at failed
      obtain ⟨-, sameVolume⟩ := render_looks.of_error failed
      exact .inl (sameVolume ▸ .refl _)
  | false =>
      obtain ⟨output, isOutput⟩ : ∃ output, conversion.output = some output := by
        cases isOutput : conversion.output with
        | none =>
            rw [isOutput] at hasOutput
            cases hasOutput
        | some output => exact ⟨output, rfl⟩
      rw [convert_of_output hasOutput, isOutput, Option.getD_some] at failed
      rcases bind_eq_error_iff.mp failed with unrendered | ⟨text, rendered, isRendered, unstored⟩
      · obtain ⟨-, sameVolume⟩ := render_looks.of_error unrendered
        exact .inl (sameVolume ▸ .refl _)
      obtain ⟨isText, sameVolume⟩ := render_looks.of_ok isRendered
      rcases bind_eq_error_iff.mp unstored with unstored | ⟨_, _, -, ⟨⟩⟩
      rcases store_eq_error unstored with keeps | ⟨place, reason, noForm, isReason, found, keeps⟩
      · exact .inl (sameVolume ▸ keeps)
      · exact .inr ⟨output, text, reason, place, isOutput, isText, noForm, isReason, found,
          sameVolume ▸ keeps⟩

/-- A conversion that fails leaves every file as it was and makes none, unless its text is there and
has surrogates, so that it has no UTF-8: then the file for the text is empty. -/
theorem convert_failure_keeps_files {fault : Fault}
    (failed : convert collation conversion desk = (.error fault, after)) :
    (∀ place, after.volume.fileAt? place = desk.volume.fileAt? place) ∨
      ∃ output text reason place, conversion.output = some output ∧
        conversion.text collation desk.volume = .ok text ∧
        (∃ codePoint ∈ text, codePoint.isSurrogate = true) ∧ text.encode = .error reason ∧
        fault = .encoding reason ∧ after.volume.find output = .ok (place, some (.file [])) ∧
        ∀ other, other ≠ place → after.volume.fileAt? other = desk.volume.fileAt? other := by
  rcases convert_eq_error failed with
    keeps | ⟨output, text, reason, place, isOutput, isText, noForm, isReason, found, keeps⟩
  · exact .inl fun place => keeps.file place id
  · exact .inr ⟨output, text, reason, place, isOutput, isText,
      Text.exists_surrogate_of_encode noForm, noForm, isReason, found, keeps.file⟩

end Task

namespace Schema

/-- A type that serves queries with one field, which holds a number. -/
def soleType (description : Option Text) : NamedType :=
  ⟨"Query", description, .object [] [⟨"a", .named "Int", [], none, none⟩]⟩

/-- Whether a schema has that type and nothing else of its own. -/
def isSole (description : Option Text) (schema : Schema) : Bool :=
  match schema.userTypes, schema.userDirectives with
  | [⟨query, found, .object [] [⟨name, type, [], none, none⟩]⟩], [] =>
    query = "Query" && found = description && name = "a" && type = .named "Int" &&
      schema.description.isNone && schema.roots = [some (Text.ofString "Query"), none, none]
  | _, _ => false

/-- The document of a schema with that type. -/
def soleDocument (description : Option Text) : Text :=
  writeDescription description [] true ++ Text.ofString "type Query \x7b\n  a: Int\n\x7d" ++
    Text.ofString "\n"

/-- The sorted copy of a schema with that type is written as its document. -/
theorem write_of_isSole {schema sorted : Schema} {description : Option Text}
    (intact : schema.Intact) (sole : isSole description schema = true)
    (sorts : schema.sort .byCodePoint = .ok sorted) :
    sorted.write "sdl" = .ok (soleDocument description) := by
  have parts : schema.userTypes = [soleType description] ∧ schema.userDirectives = [] ∧
      schema.description = none ∧ schema.roots = [some (Text.ofString "Query"), none, none] := by
    unfold isSole at sole
    split at sole
    · next types directives =>
      simp only [Bool.and_eq_true, decide_eq_true_eq, Option.isNone_iff_eq_none, and_assoc] at sole
      obtain ⟨rfl, rfl, rfl, rfl, noDescription, roots⟩ := sole
      exact ⟨types, directives, noDescription, roots⟩
    · cases sole
  obtain ⟨types, directives, noDescription, roots⟩ := parts
  have inOrder : LayoutInOrder .byCodePoint schema.userLayout := by
    rw [userLayout, types, directives]
    constructor <;> simp [soleType, NamedType.layout, TypeLayout.inOrder_iff, NameOrder.InOrder,
      NamedType.interfaces, NamedType.fields, NamedType.members, NamedType.values,
      NamedType.inputFields]
  obtain ⟨sortedTypes, sortedDirectives⟩ :=
    sort_eq_self_of_layoutInOrder intact.unique sorts inOrder
  have entries := userEntries_eq_map_userTypes (intact.sort sorts).closed.defined
  rw [sortedTypes, types] at entries
  rw [directives] at sortedDirectives
  obtain ⟨-, _, -, -, isSorted⟩ := (sort_eq_ok_iff intact.unique).mp sorts
  have noSchema : sorted.writeSchema = none := by
    have sameRoots : sorted.roots = schema.roots := by rw [isSorted]; rfl
    have sameDescription : sorted.description = schema.description := by rw [isSorted]; rfl
    rw [writeSchema, hasUsualRoots, sameRoots, sameDescription, roots, noDescription]
    rfl
  rw [Schema.write, if_pos rfl, toDocument, print,
    show sorted.directives.filter _ = _ from sortedDirectives,
    show sorted.index.filter _ = _ from entries, noSchema]
  rfl

/-- A conversion that reads such a schema gives its document. -/
theorem text_of_isSole {collation : Collation} {conversion : Conversion} {volume : Volume}
    {schema : Schema} {description : Option Text}
    (isFormat : conversion.outputFormat = ("sdl" : Text))
    (noOptions : conversion.options = .known none)
    (isRead : (Source.namedFormat conversion.input conversion.inputFormat).read volume = .ok schema)
    (sole : isSole description schema = true) :
    conversion.text collation volume = .ok (soleDocument description) := by
  have intact := Source.read_intact isRead
  obtain ⟨sorted, sorts, -⟩ := intact.sorts .byCodePoint
  have isOrder : conversion.options.order collation = .ok .byCodePoint := by
    rw [noOptions]
    rfl
  refine bind_eq_ok_iff.mpr ⟨schema, isRead, bind_eq_ok_iff.mpr ⟨sorted, ?_, ?_⟩⟩
  · rw [isOrder]
    exact mapError_eq_ok_iff.mpr sorts
  · rw [isFormat]
    exact write_of_isSole intact sole sorts

end Schema

namespace Task

open Schema

/-- Whether a conversion reads a schema with that type, and the volume that it leaves behind if it
does. -/
def soleResult (conversion : Conversion) (output : Text) (description : Option Text)
    (volume : Volume) : Except Fault (Bool × Volume) := do
  let schema ← (Source.namedFormat conversion.input conversion.inputFormat).read volume
  let directory := Path.directory output
  let (made, done) := volume.makeDirectories (if directory.isEmpty then "." else directory)
  let ⟨⟩ ← done.mapError .file
  let emptied ← (made.write output []).mapError .file
  let content ← (soleDocument description).encode.mapError .encoding
  let written ← (emptied.write output content).mapError .file
  pure (isSole description schema, written)

/-- Such a conversion gives the document of a schema with that type. -/
theorem convert_of_soleResult (collation : Collation) (conversion : Conversion) (desk : Desk)
    {output : Text} {description : Option Text} {written : Volume}
    (isOutput : conversion.output = some output) (nonempty : output ≠ [])
    (isFormat : conversion.outputFormat = ("sdl" : Text))
    (noOptions : conversion.options = .known none)
    (isResult : soleResult conversion output description desk.volume = .ok (true, written)) :
    ∃ after, convert collation conversion desk = (.ok (soleDocument description), after) ∧
      after.volume = written := by
  obtain ⟨schema, isRead, rest⟩ := Outcome.bind_eq_ok_iff.mp isResult
  obtain ⟨⟨⟩, isMade, rest⟩ := Outcome.bind_eq_ok_iff.mp rest
  obtain ⟨emptied, isEmptied, rest⟩ := Outcome.bind_eq_ok_iff.mp rest
  obtain ⟨content, encoded, rest⟩ := Outcome.bind_eq_ok_iff.mp rest
  obtain ⟨_, isWritten, given⟩ := Outcome.bind_eq_ok_iff.mp rest
  obtain ⟨sole, rfl⟩ := Prod.mk.inj (pure_eq_ok_iff.mp given)
  rw [mapError_eq_ok_iff] at isMade isEmptied encoded isWritten
  have intact := Source.read_intact isRead
  obtain ⟨sorted, sorts, -⟩ := intact.sorts .byCodePoint
  refine (convert_eq_ok_iff isOutput nonempty).mpr ⟨schema, .byCodePoint, sorted, _, emptied,
    content, isRead, by rw [noOptions]; rfl, mapError_eq_ok_iff.mpr sorts, ?_,
    Prod.ext rfl isMade, isEmptied, encoded, isWritten⟩
  rw [isFormat]
  exact write_of_isSole intact sole sorts

/-- A code point that is half of a pair. -/
def lonelySurrogate : Text :=
  [CodePoint.ofNat 0xD800]

/-- The introspection result of a schema with that type, which the surrogate describes. -/
def lonelyResult : Text :=
  ["\x7b\"__schema\": \x7b\"queryType\": \x7b\"name\": \"Query\"\x7d, \"directives\": [], \"types\": [",
    "\x7b\"kind\": \"SCALAR\", \"name\": \"Int\"\x7d, ",
    "\x7b\"kind\": \"OBJECT\", \"name\": \"Query\", \"description\": \"\\ud800\", \"interfaces\": [], ",
    "\"fields\": [\x7b\"name\": \"a\", \"args\": [], \"type\": \x7b\"kind\": \"SCALAR\", \"name\": \"Int\"\x7d\x7d]\x7d",
    "]\x7d\x7d"].flatMap Text.ofString

/-- A desk with a file that holds the introspection result, and with an older result. -/
def lonelyDesk : Desk :=
  ⟨⟨[], [([Text.ofString "lonely.json"], .file (Text.encodeLoosely lonelyResult)),
    ([Text.ofString "sorted.graphql"], .file (Text.encodeLoosely (soleDocument none)))]⟩, [], []⟩

/-- The conversion of the file by code point. -/
def lonelyConversion : Conversion :=
  ⟨"lonely.json", some (Text.ofString "sorted.graphql"), "sdl", none, .known none⟩

/-- A conversion whose input is missing fails and leaves the older result as it was. -/
theorem convert_failure_keeps_lonelyDesk : ∃ fault after,
    convert AsciiCollation.key { lonelyConversion with input := "missing.json" } lonelyDesk =
      (.error fault, after) ∧
    ∀ place, after.volume.fileAt? place = lonelyDesk.volume.fileAt? place := by
  have noText : (Conversion.text AsciiCollation.key
      { lonelyConversion with input := "missing.json" } lonelyDesk.volume).toOption.isNone := by
    decide +kernel
  rcases ran : convert AsciiCollation.key { lonelyConversion with input := "missing.json" }
    lonelyDesk with ⟨fault | text, after⟩
  · refine ⟨fault, after, rfl, ?_⟩
    rcases convert_failure_keeps_files ran with kept | ⟨_, text, _, _, -, isText, -⟩
    · exact kept
    · rw [isText] at noText
      cases noText
  · obtain ⟨isText, -⟩ := convert_eq_ok rfl rfl ran
    rw [isText] at noText
    cases noText

/-- A conversion whose text has a surrogate fails and empties the file with the older result. -/
theorem convert_failure_empties_lonelyDesk : ∃ fault after place,
    convert AsciiCollation.key lonelyConversion lonelyDesk = (.error fault, after) ∧
      lonelyDesk.volume.fileAt? place = some (Text.encodeLoosely (soleDocument none)) ∧
      after.volume.fileAt? place = some [] := by
  have succeeds : (do
      let schema ← (Source.namedFormat lonelyConversion.input none).read lonelyDesk.volume
      let ⟨⟩ ← (lonelyDesk.volume.makeDirectories ".").2.mapError .file
      let emptied ← ((lonelyDesk.volume.makeDirectories ".").1.write "sorted.graphql" []).mapError
        .file
      return (isSole (some lonelySurrogate) schema, emptied.fileAt? ["sorted.graphql"]) :
        Except Fault (Bool × Option Bytes)).toOption = some (true, some []) := by
    decide +kernel
  obtain ⟨schema, isRead, rest⟩ := Outcome.bind_eq_ok_iff.mp (eq_ok_of_toOption succeeds)
  obtain ⟨⟨⟩, isMade, rest⟩ := Outcome.bind_eq_ok_iff.mp rest
  obtain ⟨emptied, isEmptied, rest⟩ := Outcome.bind_eq_ok_iff.mp rest
  rw [mapError_eq_ok_iff] at isMade isEmptied
  obtain ⟨sole, empty⟩ := Prod.mk.inj (pure_eq_ok_iff.mp rest)
  have isText : lonelyConversion.text AsciiCollation.key lonelyDesk.volume =
      .ok (soleDocument (some lonelySurrogate)) :=
    text_of_isSole rfl rfl isRead sole
  obtain ⟨rendered, isRendered, sameVolume⟩ := (isText ▸ render_looks).exists_ok
  cases noForm : (soleDocument (some lonelySurrogate)).encode with
  | ok content =>
      have hasNone : (soleDocument (some lonelySurrogate)).encode.toOption.isNone := by
        decide +kernel
      rw [noForm] at hasNone
      cases hasNone
  | error reason =>
      have inPlace : (Path.directory "sorted.graphql").isEmpty = true := by decide
      have makes : rendered.volume.makeDirectories (if (Path.directory "sorted.graphql").isEmpty
          then "." else Path.directory "sorted.graphql") =
            ((lonelyDesk.volume.makeDirectories ".").1, .ok ()) := by
        rw [if_pos inPlace, sameVolume]
        exact Prod.ext rfl isMade
      have stores : store "sorted.graphql" _ rendered = _ :=
        store_of_noForm makes isEmptied noForm
      have fails : convert AsciiCollation.key lonelyConversion lonelyDesk =
          (.error (.encoding reason), { rendered with volume := emptied }) := by
        rw [convert_of_output rfl]
        exact bind_eq_error_iff.mpr
          (.inr ⟨_, rendered, isRendered, bind_eq_error_iff.mpr (.inl stores)⟩)
      exact ⟨_, _, [Text.ofString "sorted.graphql"], fails, by decide +kernel, empty⟩

end Task

end SchemaOrder
