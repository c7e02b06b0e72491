import SchemaOrder.Failure
import SchemaOrder.Named
import SchemaOrder.Storage.Path

/-!
# Volumes

This module holds the files a program works on, as a value: files and directories under
one root, how they are read, written and made, and the refusals of the file system with
their words.
-/

namespace SchemaOrder

/-- What stands at a place of a volume. -/
inductive Node where
  | file (content : Bytes)
  | directory
deriving DecidableEq, Repr

/-- Why the file system refuses something. -/
inductive Refusal where
  | notFound
  | exists
  | notDirectory
  | isDirectory
  | nameTooLong
deriving DecidableEq, Repr

namespace Refusal

/-- The number of a refusal. -/
def number : Refusal → Nat
  | .notFound => 2
  | .exists => 17
  | .notDirectory => 20
  | .isDirectory => 21
  | .nameTooLong => 36

/-- The words for a refusal. -/
def words : Refusal → Text
  | .notFound => "No such file or directory"
  | .exists => "File exists"
  | .notDirectory => "Not a directory"
  | .isDirectory => "Is a directory"
  | .nameTooLong => "File name too long"

/-- The kind of failure that a refusal is. -/
def kind : Refusal → FailureKind
  | .notFound => .fileNotFound
  | .exists => .fileExists
  | .notDirectory => .notDirectory
  | .isDirectory => .isDirectory
  | .nameTooLong => .fileSystem

end Refusal

/-- Why something cannot be done with a path. -/
inductive FileFault where
  | refused (refusal : Refusal) (path : Text)
  /-- The path holds the code point zero. -/
  | embeddedNull
  /-- The path has no form in bytes. -/
  | notEncodable (fault : Text.EncodingFault)
deriving DecidableEq, Repr

namespace FileFault

/-- The words for a fault. -/
def message : FileFault → Text
  | .refused refusal path =>
    "[Errno " ++ Text.ofNat refusal.number ++ "] " ++ refusal.words ++ ": " ++ path.quoted
  | .embeddedNull => "embedded null byte"
  | .notEncodable fault => fault.message

/-- The kind of failure that a fault is. -/
def kind : FileFault → FailureKind
  | .refused refusal _ => refusal.kind
  | .embeddedNull => .value
  | .notEncodable _ => .encoding

end FileFault

/-- Files and directories, by the names that lead to them from the root. The root, the
current directory and the directories in between are always there. -/
structure Volume where
  current : List Text
  nodes : List (List Text × Node)
deriving Repr

namespace Volume

/-- What stands at a place. -/
def at? (volume : Volume) (place : List Text) : Option Node :=
  if place.isPrefixOf volume.current then some .directory
  else (volume.nodes.find? fun entry => entry.1 = place).map (·.2)

/-- The volume with something put at a place. -/
def put (volume : Volume) (place : List Text) (node : Node) : Volume :=
  { volume with nodes := volume.nodes.filter (fun entry => entry.1 ≠ place) ++ [(place, node)] }

/-- The longest name, in bytes. -/
def longestName : Nat := 255

/-- The bound that the length of a path stays below, in bytes. -/
def pathBound : Nat := 4096

/-- Follows names from a directory. All but the last one have to lead to directories;
where the last one leads nowhere, so does the path. -/
def follow (volume : Volume) (place : List Text) :
    List Text → Except Refusal (List Text × Option Node)
  | [] => .ok (place, volume.at? place)
  | name :: rest =>
    match volume.at? place with
    | none => .error .notFound
    | some (.file _) => .error .notDirectory
    | some .directory =>
      if name = "." then follow volume place rest
      else if name = ".." then follow volume place.dropLast rest
      else if longestName < (Text.encodeLoosely name).length then .error .nameTooLong
      else follow volume (place ++ [name]) rest

/-- Checks that a path has a form in bytes, which may hold escaped bytes. -/
def checkPath (path : Text) : Except FileFault Unit :=
  let isEscaped (codePoint : CodePoint) : Bool :=
    0xDC80 ≤ codePoint.value && codePoint.value ≤ 0xDCFF
  let plain := path.map fun codePoint =>
    if isEscaped codePoint then CodePoint.ofChar '?' else codePoint
  match Text.encode plain with
  | .error fault => .error (.notEncodable fault)
  | .ok bytes => if bytes.contains 0 then .error .embeddedNull else .ok ()

/-- Where a path begins: at the root, or in the current directory. -/
def startOf (volume : Volume) (path : Text) : List Text :=
  if path.head? = some Path.separator then [] else volume.current

/-- The place that a path leads to and what stands there, if anything does. A path that
ends in a separator leads to a directory or nowhere. -/
def find (volume : Volume) (path : Text) : Except FileFault (List Text × Option Node) := do
  checkPath path
  let refuse (refusal : Refusal) : Except FileFault (List Text × Option Node) :=
    .error (.refused refusal path)
  if path.isEmpty then refuse .notFound
  else if pathBound ≤ (Text.encodeLoosely path).length then refuse .nameTooLong
  else
    match volume.follow (volume.startOf path) (Path.components path) with
    | .error refusal => refuse refusal
    | .ok (place, some (.file content)) =>
      if path.getLast? = some Path.separator then refuse .notDirectory
      else pure (place, some (.file content))
    | .ok found => pure found

/-- The bytes of a file. -/
def read (volume : Volume) (path : Text) : Except FileFault Bytes := do
  match ← volume.find path with
  | (_, some (.file content)) => pure content
  | (_, some .directory) => .error (.refused .isDirectory path)
  | (_, none) => .error (.refused .notFound path)

/-- Whether a path leads to anything. -/
def exists? (volume : Volume) (path : Text) : Bool :=
  match volume.find path with
  | .ok (_, some _) => true
  | _ => false

/-- Whether a path leads to a directory. -/
def isDirectory (volume : Volume) (path : Text) : Bool :=
  match volume.find path with
  | .ok (_, some .directory) => true
  | _ => false

/-- The place of a file that is about to be written: one that exists, or one that can be
made in a directory that exists. -/
def placeToWrite (volume : Volume) (path : Text) : Except FileFault (List Text) := do
  checkPath path
  let isMarked := path.getLast? = some Path.separator
  match volume.find path with
  | .error (.refused .notDirectory _) =>
    .error (.refused (if isMarked && volume.exists? (Path.dropSeparators path) then .isDirectory
      else .notDirectory) path)
  | .error fault => .error fault
  | .ok (_, some .directory) => .error (.refused .isDirectory path)
  | .ok (place, some (.file _)) => pure place
  | .ok (place, none) =>
    if isMarked then .error (.refused .isDirectory path) else pure place

/-- The volume with the content of a file replaced; the file is made if it has to be. -/
def write (volume : Volume) (path : Text) (content : Bytes) : Except FileFault Volume := do
  let place ← volume.placeToWrite path
  pure (volume.put place (.file content))

/-- The volume with one more directory. -/
def makeDirectory (volume : Volume) (path : Text) : Except FileFault Volume := do
  checkPath path
  match volume.find path with
  | .error (.refused .notDirectory _) =>
    .error (.refused
      (if volume.exists? (Path.dropSeparators path) then .exists else .notDirectory) path)
  | .error fault => .error fault
  | .ok (_, some _) => .error (.refused .exists path)
  | .ok (place, none) => pure (volume.put place .directory)

/-- Makes the directory that a path names in a volume where those that lead to it were made.
It may exist already. The current directory of a directory that was only just made needs no
making. -/
def makeLastDirectory (volume prepared : Volume) (path : Text) :
    Volume × Except FileFault Unit :=
  let (head, tail) := Path.splitLast path
  if tail = "." && !head.isEmpty && !volume.exists? head then (prepared, .ok ())
  else
    match prepared.makeDirectory path with
    | .ok made => (made, .ok ())
    | .error (.refused refusal place) =>
      if prepared.isDirectory path then (prepared, .ok ())
      else (prepared, .error (.refused refusal place))
    | .error fault => (prepared, .error fault)

/-- The volume with a directory and all that lead to it. The first fault on the way, from
the top, is reported; every step goes to a shorter path. -/
def makeDirectoriesWith : Nat → Volume → Text → Volume × Except FileFault Unit
  | 0, volume, path => makeLastDirectory volume volume path
  | fuel + 1, volume, path =>
    let (head, tail) := Path.splitLast path
    if !head.isEmpty && !tail.isEmpty && !volume.exists? head then
      match makeDirectoriesWith fuel volume head with
      | (prepared, .ok ()) | (prepared, .error (.refused .exists _)) =>
        makeLastDirectory volume prepared path
      | refused => refused
    else makeLastDirectory volume volume path

/-- The volume with a directory and all that lead to it, and whether that could be done. -/
def makeDirectories (volume : Volume) (path : Text) : Volume × Except FileFault Unit :=
  makeDirectoriesWith path.length volume path

/-- The names in a directory. -/
def list (volume : Volume) (path : Text) : Except FileFault (List Text) := do
  match ← volume.find path with
  | (_, none) => .error (.refused .notFound path)
  | (_, some (.file _)) => .error (.refused .notDirectory path)
  | (place, some .directory) =>
    pure (volume.nodes.filterMap fun entry =>
      if entry.1.length = place.length + 1 && place.isPrefixOf entry.1 then entry.1.getLast?
      else none)

/-- The volume with a file or a directory put at a place, with all directories that lead
to it. -/
def insert (volume : Volume) (place : List Text) (node : Node) : Volume :=
  let prepared := (List.range place.length).foldl (fun known count =>
    let parent := place.take count
    match known.at? parent with
    | some _ => known
    | none => known.put parent .directory) volume
  prepared.put place node

/-- The files and directories below the current directory, by the names that lead to them
from there. -/
def below (volume : Volume) : List (List Text × Node) :=
  volume.nodes.filterMap fun entry =>
    if volume.current.isPrefixOf entry.1 && volume.current.length < entry.1.length then
      some (entry.1.drop volume.current.length, entry.2)
    else none

end Volume

end SchemaOrder
