import SchemaOrder.Command.Program
import SchemaOrder.Order.AsciiCollation

/-!
# The program in its surroundings

This module holds the outer layer of the program. It looks up what the arguments name in
the file system, hands it to the program as a volume, and carries out what the program
changed in the volume.
-/

namespace SchemaOrder.Surroundings

/-- The text of a name of the file system. -/
def nameOf (text : Text) : String :=
  text.toStringLossy

/-- The path of a place, from the root on. -/
def absolutePath (place : List Text) : String :=
  nameOf (Path.separator :: Text.join [Path.separator] place)

/-- Puts what stands at a place of the file system into a volume. The result says whether
it is a directory. -/
def loadNode (volume : Volume) (place : List Text) : IO (Volume × Bool) := do
  let path := (← IO.currentDir) / absolutePath place
  if ← path.isDir then
    pure (if (volume.at? place).isSome then volume else volume.put place .directory, true)
  else if ← path.pathExists then
    let content ← IO.FS.readBinFile path
    pure (volume.put place (.file content.toList), false)
  else pure (volume, false)

/-- Puts what names lead to into a volume, as far as they lead anywhere. The result is
the directory that all of them lead to, if they do. -/
def loadAlong (volume : Volume) (place : List Text) :
    List Text → IO (Volume × Option (List Text))
  | [] => pure (volume, some place)
  | name :: rest =>
    if name = "." then loadAlong volume place rest
    else if name = ".." then loadAlong volume place.dropLast rest
    else do
      let place := place ++ [name]
      let (volume, isDirectory) ← loadNode volume place
      if isDirectory then loadAlong volume place rest else pure (volume, none)

/-- Puts what a path leads to into a volume, with all that a directory holds. -/
def loadPath (volume : Volume) (path : Text) : IO Volume := do
  let (volume, directory?) ← loadAlong volume (volume.startOf path) (Path.components path)
  match directory? with
  | none => pure volume
  | some place => do
    let entries ← ((← IO.currentDir) / absolutePath place).readDir
    entries.toList.foldlM (fun volume entry => do
      return (← loadNode volume (place ++ [Text.ofString entry.fileName])).1) volume

/-- The volume that arguments of the program speak of. -/
def load (arguments : List Text) : IO Volume := do
  let current := Path.components (Text.ofString (← IO.currentDir).toString)
  let start : Volume := ⟨current, []⟩
  match Arguments.read arguments with
  | .error _ => pure start
  | .ok arguments => do
    let directories := [arguments.inputDirectory, arguments.outputDirectory]
    let results := arguments.output.map Path.directory
    let paths := ([arguments.input, arguments.output, results] ++ directories).filterMap id
    (paths.filter fun path => !path.isEmpty).foldlM loadPath start

/-- Carries out what was changed in a volume. -/
def save (before after : Volume) : IO Unit := do
  for (place, node) in after.nodes do
    if !before.nodes.contains (place, node) then
      match node with
      | .directory => IO.FS.createDirAll (absolutePath place)
      | .file content => IO.FS.writeBinFile (absolutePath place) ⟨content.toArray⟩

/-- Runs the program and carries out what it asks for. -/
def run (arguments : List Text) : IO UInt32 := do
  let volume ← load arguments
  let ending := Program.run volume AsciiCollation.key arguments
  save volume ending.volume
  IO.print (nameOf ending.output)
  IO.eprint (nameOf ending.errors)
  match ending.status with
  | .ok status => pure (UInt32.ofNat status)
  | .error fault => do
    IO.eprintln (nameOf fault.report)
    pure 1

end SchemaOrder.Surroundings

/-- Runs the program on the arguments of the command line. -/
def main (arguments : List String) : IO UInt32 :=
  SchemaOrder.Surroundings.run (arguments.map SchemaOrder.Text.ofString)
