import SchemaOrder.Text.Quoted
import SchemaOrder.Text.Utf8

/-!
# Paths

This module holds the texts that name files: how they fall into a directory and a name,
how they are joined, and what the end of a name says about the content of the file.
-/

namespace SchemaOrder.Path

/-- The mark between the names of a path. -/
def separator : CodePoint :=
  CodePoint.ofChar '/'

/-- The text without the separators at its end. -/
def dropSeparators (path : Text) : Text :=
  (path.reverse.dropWhile (· = separator)).reverse

/-- What stands before the last separator and what stands behind it. The first part does
not end in a separator unless it consists of nothing else. -/
def split (path : Text) : Text × Text :=
  let name := (path.reverse.takeWhile (· ≠ separator)).reverse
  let before := path.take (path.length - name.length)
  let trimmed := dropSeparators before
  (if trimmed.isEmpty then before else trimmed, name)

/-- The directory that a path names something in, and the name. Separators at the end of the
path do not count. -/
def splitLast (path : Text) : Text × Text :=
  let parts := split path
  if parts.2.isEmpty then split parts.1 else parts

/-- The directory that a path names something in. -/
def directory (path : Text) : Text :=
  (split path).1

/-- A name inside a directory. -/
def join (directory name : Text) : Text :=
  if name.head? = some separator then name
  else if directory.isEmpty || directory.getLast? = some separator then directory ++ name
  else directory ++ [separator] ++ name

/-- A name without its extension. Full stops at the beginning of a name begin no
extension. -/
def dropExtension (name : Text) : Text :=
  let stop := CodePoint.ofChar '.'
  let leading := name.takeWhile (· = stop)
  let rest := name.drop leading.length
  if rest.contains stop then
    leading ++ ((rest.reverse.dropWhile (· ≠ stop)).drop 1).reverse
  else name

/-- The names that a path leads through. -/
def components (path : Text) : List Text :=
  (path.splitOn separator).filter fun name => !name.isEmpty

end SchemaOrder.Path
