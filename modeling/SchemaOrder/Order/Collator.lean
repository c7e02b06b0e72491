import SchemaOrder.Order.NameOrder
import SchemaOrder.Order.Options

/-!
# Collators

This module holds which options of comparison describe a collator, and the settings of
the collator they describe. The collation itself is a parameter of the library: a
function that takes the settings and a name to the bytes of a key.
-/

namespace SchemaOrder

/-- How many levels of difference a collator looks at. -/
inductive Strength where
  | primary
  | secondary
  | tertiary
deriving DecidableEq, Repr

/-- Which case comes first where names differ in case only. -/
inductive CaseFirst where
  | upper
  | lower
  | off
deriving DecidableEq, Repr

/-- The settings of a collator. -/
structure CollatorSettings where
  /-- The language tag of the locale; none is the root of all locales. -/
  locale : Option Text
  /-- What differences count. -/
  sensitivity : Text
  strength : Strength
  caseLevel : Bool
  numeric : Bool
  caseFirst : CaseFirst
  /-- Whether punctuation is skipped. -/
  ignorePunctuation : Bool
deriving DecidableEq, Repr

/-- A collation: the bytes that a collator of given settings compares a name by. -/
abbrev Collation := CollatorSettings → Text → Bytes

namespace Collator

/-- The words for the differences that may count. -/
def sensitivities : List Text := ["base", "accent", "case", "variant"]

/-- The words for which case comes first. -/
def caseFirstChoices : List Text := ["upper", "lower", "false"]

/-- The settings a collator knows. -/
def knownSettings : List Text := ["sensitivity", "numeric", "caseFirst", "ignorePunctuation"]

/-- Letters and digits of ASCII. -/
def isAlphanumeric (codePoint : CodePoint) : Bool :=
  codePoint.isLetter || codePoint.isDigit

/-- Whether a part of a language tag has the right length and the right code points. -/
def isSubtag (least : Nat) (accepts : CodePoint → Bool) (part : Text) : Bool :=
  least ≤ part.length && part.length ≤ 8 && part.all accepts

/-- Whether a text is a language tag: a language of two to eight letters, then parts of
one to eight letters or digits, with hyphens between them. -/
def isLanguageTag (text : Text) : Bool :=
  match text.splitOn (CodePoint.ofChar '-') with
  | [] => false
  | language :: parts =>
    isSubtag 2 CodePoint.isLetter language && parts.all (isSubtag 1 isAlphanumeric)

/-- The text without one line feed at its end, which a language tag may have. -/
def dropLineEnd (text : Text) : Text :=
  if text.endsWith "\n" then text.dropLast else text

/-- Whether an entry of the locales is accepted. -/
def acceptsLocale : Json → Bool
  | .text tag => isLanguageTag (dropLineEnd tag)
  | _ => false

/-- The locales of options, all of which have to be language tags. -/
def checkLocales (options : CompareOptions) : Except OptionFault (List Json) :=
  let locales := options.locales.toList
  match locales.find? fun entry => !acceptsLocale entry with
  | some entry => .error (.locale entry)
  | none => .ok locales

/-- The value of a setting that is true or false, and false where it is not given. -/
def readFlag (options : CompareOptions) (name : Text) : Except OptionFault Bool :=
  match options.setting? name with
  | none => .ok false
  | some (.boolean value) => .ok value
  | some other => .error (.notFlag name other)

/-- The value of a setting that is one of a few words. -/
def readChoice (options : CompareOptions) (name : Text) (choices : List Text)
    (otherwise : Text) : Except OptionFault Text :=
  match options.setting? name with
  | none => .ok otherwise
  | some value =>
    match choices.find? fun choice => value.agrees (.text choice) with
    | some choice => .ok choice
    | none => .error (.notChoice name choices value)

/-- The levels that a sensitivity looks at, and whether case is a level of its own. -/
def levelsOf (sensitivity : Text) : Strength × Bool :=
  if sensitivity = "base" then (.primary, false)
  else if sensitivity = "accent" then (.secondary, false)
  else if sensitivity = "case" then (.primary, true)
  else (.tertiary, false)

/-- Which case a word puts first. -/
def caseFirstOf (choice : Text) : CaseFirst :=
  if choice = "upper" then .upper else if choice = "lower" then .lower else .off

/-- The settings of the collator that options describe. -/
def ofOptions (options : CompareOptions) : Except OptionFault CollatorSettings := do
  let unknown ← CompareOptions.unknownNames knownSettings (options.settings.map (·.1))
  if !unknown.isEmpty then .error (.unknownSettings unknown)
  else do
    let locales ← checkLocales options
    let sensitivity ← readChoice options "sensitivity" sensitivities "variant"
    let numeric ← readFlag options "numeric"
    let caseFirst ← readChoice options "caseFirst" caseFirstChoices "false"
    let ignorePunctuation ← readFlag options "ignorePunctuation"
    let levels := levelsOf sensitivity
    let locale := match locales.head? with
      | some (.text tag) => some tag
      | _ => none
    pure ⟨locale, sensitivity, levels.1, levels.2, numeric, caseFirstOf caseFirst,
      ignorePunctuation⟩

end Collator

namespace NameOrder

/-- The order of names that options ask for: by code point where there are none, and by
the keys of the described collator otherwise. -/
def ofOptions (collation : Collation) (options : Option CompareOptions) :
    Except OptionFault NameOrder :=
  match options with
  | none => .ok byCodePoint
  | some options => (Collator.ofOptions options).map fun settings =>
      collated (collation settings)

/-- The order of names that a JSON value asks for. -/
def ofJson (collation : Collation) (value : Json) : Except OptionFault NameOrder := do
  ofOptions collation (← CompareOptions.ofJson value)

end NameOrder

end SchemaOrder
