import SchemaOrder.Order.Collator
import SchemaOrder.Storage.Source

/-!
# Arguments

This module holds the arguments of the program and how they are read. A name may be cut
short as long as only one name begins with it; a value stands behind a name or is tied to
it; single letters without values may be run together. All names are looked up before
anything is done, so that an ambiguous name is refused first.
-/

namespace SchemaOrder

/-- The arguments of the program. -/
structure Arguments where
  input : Option Text := none
  output : Option Text := none
  inputDirectory : Option Text := none
  outputDirectory : Option Text := none
  inputFormat : Option Text := none
  outputFormat : Text := Format.document.name
  isCheck : Bool := false
  isFingerprint : Bool := false
  locales : List Text := []
  sensitivity : Option Text := none
  isNumeric : Bool := false
  caseFirst : Option Text := none
  ignoresPunctuation : Bool := false
  isVerbose : Bool := false
  isQuiet : Bool := false
deriving Repr

namespace Arguments

/-- The options of comparison that arguments ask for, if they ask for any. -/
def compareOptions (arguments : Arguments) : Option CompareOptions :=
  let word (name : Text) (value : Option Text) : List (Json × Json) :=
    value.toList.map fun value => (.text name, .text value)
  let switch (name : Text) (value : Bool) : List (Json × Json) :=
    if value then [(.text name, .boolean true)] else []
  let settings := word "sensitivity" arguments.sensitivity ++
    switch "numeric" arguments.isNumeric ++ word "caseFirst" arguments.caseFirst ++
    switch "ignorePunctuation" arguments.ignoresPunctuation
  if settings.isEmpty && arguments.locales.isEmpty then none
  else
    let locales : Locales :=
      if arguments.locales.isEmpty then .unset
      else .listed (arguments.locales.map .text)
    some ⟨locales, settings⟩

/-- What a name among the arguments does. -/
inductive Action where
  /-- Asks for the help. -/
  | help
  | switch (set : Arguments → Arguments)
  /-- Takes a value, which may have to be one of a few words. -/
  | value (choices : List Text) (set : Text → Arguments → Arguments)

/-- A thing that may be named among the arguments, with all its names. -/
structure Flag where
  names : List Text
  action : Action

/-- Whether a flag takes a value. -/
def Flag.takesValue (flag : Flag) : Bool :=
  match flag.action with
  | .value .. => true
  | _ => false

/-- What a flag is called in messages. -/
def Flag.title (flag : Flag) : Text :=
  Text.join "/" flag.names

/-- The flags of the program. -/
def flags : List Flag := [
  ⟨["-h", "--help"], .help⟩,
  ⟨["--input", "-i"], .value [] fun value known => { known with input := some value }⟩,
  ⟨["--output", "-o"], .value [] fun value known => { known with output := some value }⟩,
  ⟨["--input-dir"], .value [] fun value known => { known with inputDirectory := some value }⟩,
  ⟨["--output-dir"], .value [] fun value known => { known with outputDirectory := some value }⟩,
  ⟨["--from"], .value ["sdl", "introspection"] fun value known =>
    { known with inputFormat := some value }⟩,
  ⟨["--to"], .value ["sdl", "json"] fun value known => { known with outputFormat := value }⟩,
  ⟨["--check"], .switch fun known => { known with isCheck := true }⟩,
  ⟨["--fingerprint"], .switch fun known => { known with isFingerprint := true }⟩,
  ⟨["--locale"], .value [] fun value known =>
    { known with locales := known.locales ++ [value] }⟩,
  ⟨["--sensitivity"], .value Collator.sensitivities fun value known =>
    { known with sensitivity := some value }⟩,
  ⟨["--numeric"], .switch fun known => { known with isNumeric := true }⟩,
  ⟨["--case-first"], .value Collator.caseFirstChoices fun value known =>
    { known with caseFirst := some value }⟩,
  ⟨["--ignore-punctuation"], .switch fun known => { known with ignoresPunctuation := true }⟩,
  ⟨["--verbose", "-v"], .switch fun known => { known with isVerbose := true }⟩,
  ⟨["--quiet", "-q"], .switch fun known => { known with isQuiet := true }⟩]

/-- The flags by all their names. -/
def namedFlags : List (Text × Flag) :=
  flags.flatMap fun flag => flag.names.map fun name => (name, flag)

/-- The flag with a name. -/
def flag? (name : Text) : Option Flag :=
  (namedFlags.find? fun entry => entry.1 = name).map (·.2)

/-- Why arguments are refused. -/
inductive Refusal where
  /-- A name that is the beginning of several names. -/
  | ambiguous (name : Text) (candidates : List Text)
  /-- A value tied to a flag that takes none. -/
  | valueIgnored (flag : Text) (value : Text)
  /-- A flag that takes a value, without one. -/
  | valueMissing (flag : Text)
  /-- A value that is none of the words it may be. -/
  | notChoice (flag : Text) (value : Text) (choices : List Text)
  /-- Arguments that nothing is known about. -/
  | unrecognized (arguments : List Text)
deriving Repr

/-- The words for a refusal. -/
def Refusal.message : Refusal → Text
  | .ambiguous name candidates =>
    "ambiguous option: " ++ name ++ " could match " ++ Text.join ", " candidates
  | .valueIgnored flag value =>
    "argument " ++ flag ++ ": ignored explicit argument " ++ value.quoted
  | .valueMissing flag => "argument " ++ flag ++ ": expected one argument"
  | .notChoice flag value choices =>
    "argument " ++ flag ++ ": invalid choice: " ++ value.quoted ++ " (choose from " ++
      Text.join ", " (choices.map Text.quoted) ++ ")"
  | .unrecognized arguments => "unrecognized arguments: " ++ Text.join " " arguments

/-- Why there are no arguments to go on with. -/
inductive Stop where
  /-- The help is asked for. -/
  | help
  | refused (refusal : Refusal)
deriving Repr

/-- What stands behind which all arguments are plain. -/
def separator : Text := "--"

/-- What is tied to a name in one argument. -/
inductive Tie where
  | nothing
  /-- A text right behind the name. -/
  | joined (text : Text)
  /-- A text behind an equals sign. -/
  | marked (text : Text)

/-- An argument after all names were looked up. -/
inductive Word where
  | separator
  | plain (text : Text)
  /-- A name that nothing has. -/
  | unknown (text : Text)
  | named (flag : Flag) (name : Text) (tie : Tie)

/-- The sign between a name and the value that is tied to it. -/
def equalsSign : CodePoint := CodePoint.ofChar '='

/-- The name in front of an equals sign and what is tied to it. -/
def untie (text : Text) : Text × Tie :=
  let name := text.takeWhile (· ≠ equalsSign)
  (name, if text.contains equalsSign then .marked (text.drop (name.length + 1)) else .nothing)

/-- The hyphen that names begin with. -/
def hyphen : CodePoint := CodePoint.ofChar '-'

/-- Whether a text is a negative number. One line feed may follow. -/
def isNegativeNumber (text : Text) : Bool :=
  let line : Text := if text.endsWith "\n" then text.dropLast else text
  let magnitude := line.drop 1
  let whole := magnitude.takeWhile CodePoint.isDigit
  match magnitude.drop whole.length with
  | [] => line.startsWith "-" && !whole.isEmpty
  | point :: fraction =>
    line.startsWith "-" && point = CodePoint.ofChar '.' && !fraction.isEmpty &&
      fraction.all CodePoint.isDigit

/-- The names that a text may be short for, each with its flag and what is tied to it. -/
def candidates (text : Text) : List (Text × Flag × Tie) :=
  if text.startsWith "--" then
    let (stem, tie) := untie text
    (namedFlags.filter fun entry => entry.1.startsWith stem).map fun (name, flag) =>
      (name, flag, tie)
  else
    (namedFlags.filter fun entry => entry.1 = text.take 2).map fun (name, flag) =>
      (name, flag, .joined (text.drop 2))

/-- Looks up a text that begins with a hyphen and is no name itself. -/
def lookUpShort (text : Text) : Except Stop Word :=
  match candidates text with
  | [] =>
    .ok (if isNegativeNumber text || text.contains (CodePoint.ofChar ' ') then .plain text
      else .unknown text)
  | [(name, flag, tie)] => .ok (.named flag name tie)
  | several => .error (.refused (.ambiguous text (several.map (·.1))))

/-- Looks up an argument. -/
def lookUp (text : Text) : Except Stop Word :=
  if text.head? ≠ some hyphen then .ok (.plain text)
  else
    match flag? text with
    | some flag => .ok (.named flag text .nothing)
    | none =>
      if text.length = 1 then .ok (.plain text)
      else
        let (name, tie) := untie text
        match flag? name with
        | some flag => .ok (.named flag name tie)
        | none => lookUpShort text

/-- Looks up all arguments. -/
def lookUpAll : List Text → Except Stop (List Word)
  | [] => .ok []
  | text :: rest =>
    if text = separator then .ok (.separator :: rest.map .plain)
    else do
      let word ← lookUp text
      return word :: (← lookUpAll rest)

/-- What one argument asks for. -/
structure Chosen where
  /-- Flags with the values they take. -/
  flags : List (Flag × Option Text)
  /-- What nothing is known about. -/
  unknown : List Text
  /-- The arguments behind it that are left. -/
  left : List Word

/-- What is asked for behind a flag without a value. -/
def Chosen.after (flag : Flag) (chosen : Chosen) : Chosen :=
  { chosen with flags := (flag, none) :: chosen.flags }

/-- A flag to which nothing is tied. -/
def chooseAlone (flag : Flag) (rest : List Word) : Except Stop Chosen :=
  if flag.takesValue then
    match rest with
    | .plain value :: left => .ok ⟨[(flag, some value)], [], left⟩
    | _ => .error (.refused (.valueMissing flag.title))
  else .ok ⟨[(flag, none)], [], rest⟩

/-- A flag to which a text is tied: its value, or letters that name flags themselves. An
equals sign ends the letters; from an unknown letter on nothing is known. -/
def chooseTied (flag : Flag) (name : Text) (isMarked : Bool) (tail : Text)
    (rest : List Word) : Except Stop Chosen :=
  if flag.takesValue then .ok ⟨[(flag, some tail)], [], rest⟩
  else
    let ignored : Except Stop Chosen := .error (.refused (.valueIgnored flag.title tail))
    match tail with
    | [] => ignored
    | letter :: more =>
      if name.startsWith "--" || isMarked || letter = hyphen then ignored
      else
        let short : Text := [hyphen, letter]
        match flag? short, more with
        | none, _ => .ok ⟨[(flag, none)], [hyphen :: letter :: more], rest⟩
        | some next, [] => (chooseAlone next rest).map (Chosen.after flag)
        | some next, mark :: others =>
          (if mark = equalsSign then chooseTied next short true others rest
            else chooseTied next short false (mark :: others) rest).map (Chosen.after flag)

/-- The flags that one argument names. -/
def choose (flag : Flag) (name : Text) (tie : Tie) (rest : List Word) : Except Stop Chosen :=
  match tie with
  | .nothing => chooseAlone flag rest
  | .joined tail => chooseTied flag name false tail rest
  | .marked tail => chooseTied flag name true tail rest

/-- The arguments after a flag with its value. -/
def set (arguments : Arguments) (flag : Flag) (value : Option Text) : Except Stop Arguments :=
  match flag.action, value with
  | .help, _ => .error .help
  | .switch set, _ => .ok (set arguments)
  | .value .., none => .ok arguments
  | .value choices set, some value =>
    if choices.isEmpty || choices.contains value then .ok (set value arguments)
    else .error (.refused (.notChoice flag.title value choices))

/-- Reads arguments that were looked up. What nothing is known about is kept. The number of
arguments bounds the steps. -/
def readWords (fuel : Nat) (arguments : Arguments) (unrecognized : List Text) :
    List Word → Except Stop (Arguments × List Text)
  | [] => .ok (arguments, unrecognized)
  | word :: rest =>
    match fuel with
    | 0 => .ok (arguments, unrecognized)
    | fuel + 1 =>
      match word with
      | .separator => readWords fuel arguments (unrecognized ++ [separator]) rest
      | .plain text | .unknown text => readWords fuel arguments (unrecognized ++ [text]) rest
      | .named flag name tie => do
        let chosen ← choose flag name tie rest
        let arguments ← chosen.flags.foldlM (fun known entry => known.set entry.1 entry.2)
          arguments
        readWords fuel arguments (unrecognized ++ chosen.unknown) chosen.left

/-- Reads the arguments of the program. -/
def read (texts : List Text) : Except Stop Arguments := do
  let words ← lookUpAll texts
  let (arguments, unrecognized) ← readWords words.length {} [] words
  if unrecognized.isEmpty then pure arguments
  else .error (.refused (.unrecognized unrecognized))

end Arguments

end SchemaOrder
