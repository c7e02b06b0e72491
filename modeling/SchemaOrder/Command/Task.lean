import SchemaOrder.Fault

/-!
# Tasks

This module holds what the work of the program is made of: steps that read and write
files, print and keep a log, and that may fail. What a step did before it failed stays
done.
-/

namespace SchemaOrder

/-- How much an entry of the log matters. -/
inductive LogLevel where
  | debug
  | information
  | warning
deriving DecidableEq, Repr

namespace LogLevel

/-- The place of a level among the levels. -/
def rank : LogLevel → Nat
  | .debug => 0
  | .information => 1
  | .warning => 2

/-- The word for a level. -/
def word : LogLevel → Text
  | .debug => "DEBUG"
  | .information => "INFO"
  | .warning => "WARNING"

end LogLevel

/-- The parts of the program that keep a log. -/
inductive LogOrigin where
  | program
  | comparison
  | sorting
  | checking
deriving DecidableEq, Repr

/-- The name of a part of the program in the log. -/
def LogOrigin.name : LogOrigin → Text
  | .program => "gqlsort_py.cli"
  | .comparison => "gqlsort_py.converter.collation"
  | .sorting => "gqlsort_py.converter.lexicographic_sort"
  | .checking => "gqlsort_py.converter.sort_check"

/-- An entry of the log. -/
structure LogEntry where
  level : LogLevel
  origin : LogOrigin
  message : Text
deriving DecidableEq, Repr

/-- The line of an entry. -/
def LogEntry.line (entry : LogEntry) : Text :=
  entry.level.word ++ " " ++ entry.origin.name ++ ": " ++ entry.message ++ "\n"

/-- What a task works on. -/
structure Desk where
  volume : Volume
  /-- What was printed. -/
  output : Text
  /-- What was noted in the log, the first entry first. -/
  log : List LogEntry
deriving Repr

/-- A piece of work that may fail. -/
abbrev Task := ExceptT Fault (StateM Desk)

namespace Task

/-- A result that is known already. -/
def ofExcept {α : Type} (result : Except Fault α) : Task α :=
  fun desk => (result, desk)

/-- The volume as it is. -/
def volume : Task Volume :=
  fun desk => (.ok desk.volume, desk)

/-- Puts another volume in the place of the old one. -/
def setVolume (volume : Volume) : Task Unit :=
  fun desk => (.ok (), { desk with volume })

/-- Prints a text. -/
def print (text : Text) : Task Unit :=
  fun desk => (.ok (), { desk with output := desk.output ++ text })

/-- Notes something in the log. -/
def note (level : LogLevel) (origin : LogOrigin) (message : Text) : Task Unit :=
  fun desk => (.ok (), { desk with log := desk.log ++ [⟨level, origin, message⟩] })

/-- Does a task and goes on whether it fails or not. -/
def attempt {α : Type} (task : Task α) : Task (Except Fault α) :=
  fun desk =>
    let (result, desk) := task desk
    (.ok result, desk)

end Task

end SchemaOrder
