import FortranDocs.Failure
import FortranDocs.FileTree
import FortranDocs.Text.Utf8

/-!
# Storages

A run finds its inputs in a storage, reads them there and writes its results there.
`Storage` is what it asks for when it reads and writes, and `Discovery` is what it asks
for when it looks for files: the tests of single paths, the walk through a directory
and the matches of a wildcard pattern.

A file tree is a storage.  How files are found in it is defined in a module of its own.
-/

namespace FortranDocs

/-- Why the text of a file cannot be read. -/
inductive ReadError
  | access (error : AccessError)
  | noText
  deriving DecidableEq, Repr

namespace ReadError

/-- The wording of an error. -/
def message : ReadError -> String
  | .access error => error.message
  | .noText => "stream did not contain valid UTF-8"

end ReadError

/-- What a run needs of the place where its files are. -/
class Storage (Store : Type) where
  /-- Whether a path leads to anything. -/
  isPresent : Store -> Path -> Bool
  /-- The text of a file. -/
  readText : Store -> Path -> Except ReadError Text
  /-- The storage with the text of a file replaced, or with a new file. -/
  writeText : Store -> Path -> Text -> Except AccessError Store
  /-- The storage with a directory and the directories above it, as far as they
  could be made. -/
  makeDirectories : Store -> Path -> Store × Option AccessError

/-- An entry that a walk through a directory meets. -/
structure Walked where
  /-- The path of the entry. -/
  path : Path
  /-- Whether the entry itself is a file. -/
  isFile : Bool
  deriving DecidableEq, Repr

/-- How files are found in a storage. -/
class Discovery (Store : Type) where
  /-- Whether a path leads to a file. -/
  isFile : Store -> Path -> Bool
  /-- Whether a path leads to a directory. -/
  isDirectory : Store -> Path -> Bool
  /-- The entries below a directory, down to a depth if one is given, and without
  following links.  Each of them may be unreadable. -/
  walk : Store -> (depth : Option Nat) -> (directory : Path) -> List (Except Failure Walked)
  /-- The paths that match a wildcard pattern, unless the pattern is faulty.  Each of
  them may be unreadable. -/
  glob : Store -> (pattern : Text) -> Except Failure (List (Except Failure Path))

namespace FileTree

/-- The text of the file that a path leads to. -/
def readText (tree : FileTree) (path : Path) : Except ReadError Text :=
  match tree.read path with
  | .error error => .error (.access error)
  | .ok content =>
      match Utf8.decode content with
      | .error _ => .error .noText
      | .ok text => .ok text

end FileTree

instance : Storage FileTree where
  isPresent := fun tree path => (tree.find? path).isSome
  readText := FileTree.readText
  writeText := fun tree path text => tree.write path (Utf8.encode text)
  makeDirectories := FileTree.makeDirectories

end FortranDocs
