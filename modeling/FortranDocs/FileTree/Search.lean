import FortranDocs.Path.Pattern
import FortranDocs.Storage

/-!
# Files found in a file tree

How a file tree answers a search for files: with what is below a directory, and with
the paths that match a wildcard pattern, component by component.
-/

namespace FortranDocs

namespace Pattern

/-- Cut the text of a pattern into the patterns of its components, behind the root
if it is absolute.  A slash at the end makes no component. -/
def parsePieces (text : Text) : Except PatternError (List Pattern) :=
  let relative := if text.head? = some '/' then text.drop 1 else text
  let pieces := Text.splitOn '/' relative
  let pieces :=
    if pieces.length > 1 ∧ pieces.getLast? = some [] then pieces.dropLast else pieces
  pieces.mapM parse

end Pattern

namespace FileTree

/-- The path of a name below a directory.  Below the working directory the name
stands alone. -/
def pathBelow (directory : Path) (name : Text) : Path :=
  if directory.components = [.current] then ⟨name⟩ else directory.child name

/-- The paths of everything below a directory, along links, up to a given depth. -/
def pathsBelow (tree : FileTree) : (depth : Nat) -> (directory : Path) -> List Path
  | 0, _ => []
  | depth + 1, directory =>
      (tree.children directory).flatMap fun name =>
        let path := pathBelow directory name
        path :: if tree.isDirectory path then pathsBelow tree depth path else []

/-- A depth that no path exceeds which leads to an entry: between two links a path
cannot go deeper than there are entries. -/
def depthLimit (tree : FileTree) : Nat :=
  (linkLimit + 1) * (tree.entries.length + 1)

/-- Whether a pattern describes the last name of a path. -/
def describesName (pattern : Pattern) (path : Path) : Bool :=
  match path.fileName? with
  | some name => pattern.describes name
  | none => false

/-- The paths that patterns lead to from a directory, one pattern for each
component.  A pattern without wildcards is taken as it is; `**` may be any number
of directories; and a pattern that starts with a dot may be the directory itself
or the one above it. -/
def matching (tree : FileTree) (patterns : List Pattern) (scope : Path) : List Path :=
  match patterns with
  | [] => [scope]
  | pattern :: rest =>
      match pattern.literal? with
      | some name =>
          let next := pathBelow scope name
          let found :=
            if name = ['.'] ∨ name = ['.', '.'] then
              tree.isDirectory scope
            else
              tree.hasEntry next
          if found then matching tree rest next else []
      | none =>
          if !tree.isDirectory scope then
            []
          else if pattern.isRecursive then
            let paths := tree.pathsBelow tree.depthLimit scope
            match _others : rest.dropWhile Pattern.isRecursive with
            | [] => paths.filter tree.isDirectory
            | next :: rest =>
                (paths.filter (describesName next)).flatMap (matching tree rest)
          else
            let paths := (tree.children scope).map (pathBelow scope)
            let special : List Path :=
              if pattern.head? = some (.letter '.') then
                ([['.'], ['.', '.']].filter pattern.describes).map scope.child
              else
                []
            (paths.filter (describesName pattern) ++ special).flatMap (matching tree rest)
termination_by patterns.length
decreasing_by
  · exact Nat.lt_succ_self _
  · exact Nat.lt_succ_of_lt (Pattern.length_lt_of_dropWhile _others)
  · exact Nat.lt_succ_self _

/-- The paths that match a pattern.  A slash at the end asks for directories. -/
def glob (tree : FileTree) (text : Text) : Except PatternError (List Path) :=
  match Pattern.parse text with
  | .error error => .error error
  | .ok _ =>
      match Pattern.parsePieces text with
      | .error error => .error error
      | .ok patterns =>
          let start : Path := if text.head? = some '/' then ⟨['/']⟩ else ⟨['.']⟩
          let paths := tree.matching patterns start
          .ok (if text.getLast? = some '/' then paths.filter tree.isDirectory else paths)

/-- The entries below a directory, down to a depth if one is given.  Links are not
followed. -/
def walked (tree : FileTree) (depth : Option Nat) (directory : Path) : List Walked :=
  match tree.locate true directory with
  | .error _ => []
  | .ok location =>
      (tree.entriesBelow location).filterMap fun (names, entry) =>
        if depth.all fun depth => names.length ≤ depth then
          some { path := names.foldl Path.child directory, isFile := entry.isFile }
        else
          none

end FileTree

/-- Every entry of a file tree can be read. -/
instance : Discovery FileTree where
  isFile := FileTree.isFile
  isDirectory := FileTree.isDirectory
  walk := fun tree depth directory => (tree.walked depth directory).map .ok
  glob := fun tree pattern =>
    match tree.glob pattern with
    | .error error => .error (Failure.root error.message)
    | .ok paths => .ok (paths.map .ok)

end FortranDocs
