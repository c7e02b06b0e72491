import SchemaOrder.Failure
import SchemaOrder.Json.Display
import SchemaOrder.Json.Equality

/-!
# Options of comparison

This module holds the options by which a caller chooses how names are compared: the
locales and the named settings, as they arrive as a JSON value. Only their shape is
checked here; whether a collator can be made of them is decided in
`SchemaOrder.Order.Collator`. Two options are equal when their locales and settings
are, and equal options have equal digests.
-/

namespace SchemaOrder

/-- Why options of comparison are refused. -/
inductive OptionFault where
  /-- Members of the options other than the two that are known. -/
  | unknownMembers (names : List Text)
  /-- Settings other than the four that are known. -/
  | unknownSettings (names : List Text)
  /-- A locale that is no language tag. -/
  | locale (value : Json)
  /-- A setting that has to be true or false. -/
  | notFlag (setting : Text) (value : Json)
  /-- A setting that has to be one of a few words. -/
  | notChoice (setting : Text) (choices : List Text) (value : Json)
  /-- A value of a kind that is no collection. -/
  | notIterable (kind : Text)
  /-- A value of a kind that cannot be found again in a hashed collection. -/
  | notHashable (kind : Text)
  /-- A setting written as a list that is no pair. -/
  | notPair (index length : Nat)
  /-- A setting written as something that is no list. -/
  | notSequence (index : Nat)
  /-- A name that is no text, where names are listed. -/
  | notText (index : Nat) (kind : Text)
  /-- Names of kinds that have no common order. -/
  | notComparable (left right : Text)
  /-- Options of a kind that has no members. -/
  | noMembers (kind : Text)
deriving Repr

/-- The words for a fault. -/
def OptionFault.message : OptionFault → Text
  | .unknownMembers names => "Unknown compare option keys: " ++ Text.join ", " names
  | .unknownSettings names => "Unknown collator options: " ++ Text.join ", " names
  | .locale value => "Incorrect locale information provided: " ++ value.display
  | .notFlag setting value =>
    "Option " ++ setting.quoted ++ " must be a boolean, got " ++ value.display
  | .notChoice setting choices value =>
    "Option " ++ setting.quoted ++ " must be one of " ++ Text.join ", " choices ++
      ", got " ++ value.display
  | .notIterable kind => "'" ++ kind ++ "' object is not iterable"
  | .notHashable kind => "unhashable type: '" ++ kind ++ "'"
  | .notPair index length =>
    "dictionary update sequence element #" ++ Text.ofNat index ++ " has length " ++
      Text.ofNat length ++ "; 2 is required"
  | .notSequence index =>
    "cannot convert dictionary update sequence element #" ++ Text.ofNat index ++
      " to a sequence"
  | .notText index kind =>
    "sequence item " ++ Text.ofNat index ++ ": expected str instance, " ++ kind ++ " found"
  | .notComparable left right =>
    "'<' not supported between instances of '" ++ left ++ "' and '" ++ right ++ "'"
  | .noMembers kind => "'" ++ kind ++ "' object has no attribute 'get'"

/-- The kind of failure that a fault is. -/
def OptionFault.kind : OptionFault → FailureKind
  | .unknownMembers _ | .unknownSettings _ | .locale _ | .notFlag .. | .notChoice .. => .collation
  | .notPair .. => .value
  | .noMembers _ => .missingAttribute
  | _ => .mismatch

/-- The locales that a caller asks for. -/
inductive Locales where
  | unset
  | single (tag : Text)
  | listed (entries : List Json)
deriving Repr

/-- How a caller wants names to be compared. -/
structure CompareOptions where
  locales : Locales
  /-- The settings; no two of them have names that agree. -/
  settings : List (Json × Json)
deriving Repr

namespace Locales

/-- The locales as a list. -/
def toList : Locales → List Json
  | .unset => []
  | .single tag => [.text tag]
  | .listed entries => entries

/-- Whether the same locales are asked for in the same form. -/
def agrees : Locales → Locales → Bool
  | .unset, .unset => true
  | .single left, .single right => left = right
  | .listed left, .listed right => Json.itemsAgree left right
  | _, _ => false

end Locales

namespace CompareOptions

/-- What a value yields when it is gone through: the items of a list, the code points of
a text, the names of an object. -/
def elements (value : Json) : Except OptionFault (List Json) :=
  match value with
  | .array items => .ok items
  | .text content => .ok (content.map fun codePoint => .text [codePoint])
  | .object members => .ok (members.map fun member => .text member.1)
  | other => .error (.notIterable other.kindName)

/-- The digest of a value that has to be found again. -/
def digestOf (value : Json) : Except OptionFault Json.Digest :=
  match value.digest with
  | .ok digest => .ok digest
  | .error kind => .error (.notHashable kind)

/-- Whether two names are both texts or both numbers. -/
def areComparable (left right : Json) : Bool :=
  match left, right with
  | .text _, .text _ => true
  | _, _ => left.quantity?.isSome && right.quantity?.isSome

/-- Names of one kind only; otherwise the first two neighbours of different kinds. -/
def checkComparable : List Json → Except OptionFault Unit
  | first :: second :: rest =>
    if areComparable first second then checkComparable (second :: rest)
    else .error (.notComparable second.kindName first.kindName)
  | _ => .ok ()

/-- Whether one name comes before another one or agrees with it. Names of different
kinds never get here. -/
def nameAtMost (left right : Json) : Bool :=
  match left, right with
  | .text left, .text right => Text.isAtMost left right
  | _, _ =>
    match left.quantity?, right.quantity? with
    | some left, some right => left.isAtMost right
    | _, _ => true

/-- Names without repetition. -/
def distinct (names : List Json) : List Json :=
  names.foldl (fun known name => if known.any name.agrees then known else known ++ [name]) []

/-- The names that are not among the known ones, sorted. All of them have to be texts. -/
def unknownNames (known : List Text) (names : List Json) : Except OptionFault (List Text) := do
  let unknown := (distinct names).filter fun name => !known.any fun text => name.agrees (.text text)
  checkComparable unknown
  let texts ← (unknown.mergeSort nameAtMost).zipIdx.mapM fun (name, index) =>
    match name with
    | .text content => .ok content
    | other => .error (.notText index other.kindName)
  pure texts

/-- The settings with one more set: a known name keeps its place and takes the value. -/
def setSetting (name value : Json) : List (Json × Json) → List (Json × Json)
  | [] => [(name, value)]
  | (known, old) :: rest =>
    if known.agrees name then (known, value) :: rest
    else (known, old) :: setSetting name value rest

/-- The pair that an entry of a list of settings is. -/
def pairOf (index : Nat) (entry : Json) : Except OptionFault (Json × Json) := do
  let parts ←
    match elements entry with
    | .ok parts => .ok parts
    | .error _ => .error (.notSequence index)
  match parts with
  | [name, value] =>
    let _ ← digestOf name
    pure (name, value)
  | other => .error (.notPair index other.length)

/-- The settings, given as an object or as a list of pairs. -/
def readSettings (value : Json) : Except OptionFault (List (Json × Json)) :=
  match value with
  | .object members =>
    .ok (members.foldl (fun known member => setSetting (.text member.1) member.2 known) [])
  | other =>
    if other.isFalsy then .ok []
    else do
      let pairs ← (← elements other).zipIdx.mapM fun (entry, index) => pairOf index entry
      pure (pairs.foldl (fun known pair => setSetting pair.1 pair.2 known) [])

/-- The locales, given as null, a text or a collection. -/
def readLocales (value : Json) : Except OptionFault Locales :=
  match value with
  | .null => .ok .unset
  | .text tag => .ok (.single tag)
  | other => (elements other).map .listed

/-- The members that options may have. -/
def knownMembers : List Text := ["locales", "options"]

/-- The options that a JSON value stands for; null stands for none. -/
def ofJson (value : Json) : Except OptionFault (Option CompareOptions) :=
  match value with
  | .null => .ok none
  | _ => do
    let names ← elements value
    names.forM fun name => do
      let _ ← digestOf name
    let unknown ← unknownNames knownMembers names
    if !unknown.isEmpty then .error (.unknownMembers unknown)
    else
      match value with
      | .object _ => do
        let settings ← readSettings ((value.get? "options").getD .null)
        let locales ← readLocales ((value.get? "locales").getD .null)
        pure (some ⟨locales, settings⟩)
      | other => .error (.noMembers other.kindName)

/-- The value of a setting. -/
def setting? (options : CompareOptions) (name : Text) : Option Json :=
  (options.settings.find? fun pair => pair.1.agrees (.text name)).map (·.2)

/-- Whether two settings say the same, in whatever order. -/
def settingsAgree (left right : List (Json × Json)) : Bool :=
  left.length = right.length && left.all fun pair =>
    match right.find? fun other => other.1.agrees pair.1 with
    | some other => pair.2.agrees other.2
    | none => false

/-- Whether two options are equal. -/
def agrees (left right : CompareOptions) : Bool :=
  left.locales.agrees right.locales && settingsAgree left.settings right.settings

/-- The settings in the order of their names. -/
def sortedSettings (options : CompareOptions) : Except OptionFault (List (Json × Json)) := do
  checkComparable (options.settings.map (·.1))
  pure (options.settings.mergeSort fun left right => nameAtMost left.1 right.1)

/-- The digest of the locales. -/
def localesDigest : Locales → Except OptionFault Json.Digest
  | .unset => .ok .absent
  | .single tag => digestOf (.text tag)
  | .listed entries => (entries.mapM digestOf).map .tuple

/-- The digest of options: that of their locales and of their sorted settings. -/
def digest (options : CompareOptions) : Except OptionFault Json.Digest := do
  let settings ← options.sortedSettings
  let locales ← localesDigest options.locales
  let pairs ← settings.mapM fun pair => do
    let name ← digestOf pair.1
    let value ← digestOf pair.2
    pure (Json.Digest.tuple [name, value])
  pure (.tuple [locales, .tuple pairs])

/-- Whether options that may be absent are equal. -/
def optionalAgrees : Option CompareOptions → Option CompareOptions → Bool
  | none, none => true
  | some left, some right => left.agrees right
  | _, _ => false

/-- The digest of options that may be absent. -/
def optionalDigest : Option CompareOptions → Except OptionFault Json.Digest
  | none => .ok .absent
  | some options => options.digest

/-- Whether the digests of two options are the same. -/
def sameDigest (left right : Option CompareOptions) : Except OptionFault Bool := do
  let first ← optionalDigest left
  let second ← optionalDigest right
  pure (first.same second)

/-- How many members the set of two options has. -/
def setSize (left right : Option CompareOptions) : Except OptionFault Nat := do
  let same ← sameDigest left right
  pure (if same && optionalAgrees left right then 1 else 2)

end CompareOptions

end SchemaOrder
