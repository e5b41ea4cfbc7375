import FortranDocs.Path.Basic

/-!
# File trees

A file tree holds directories, files and symbolic links by their locations, the
lists of names that lead to them from the root.  A path is resolved in a tree
component by component and along the links it meets.

The number of links that one path may meet is bounded, so that resolving is
defined by well-founded recursion on that number and on the components left.
-/

namespace FortranDocs

/-- Why a file or directory is not accessible. -/
inductive AccessError
  | notFound
  | alreadyExists
  | notADirectory
  | isADirectory
  | tooManyLinks
  deriving DecidableEq, Repr

namespace AccessError

/-- The wording of an error. -/
def message : AccessError -> String
  | .notFound => "No such file or directory (os error 2)"
  | .alreadyExists => "File exists (os error 17)"
  | .notADirectory => "Not a directory (os error 20)"
  | .isADirectory => "Is a directory (os error 21)"
  | .tooManyLinks => "Too many levels of symbolic links (os error 40)"

end AccessError

/-- The names that lead from the root to an entry. -/
abbrev Location := List Text

/-- An entry of a file tree. -/
inductive Entry
  | directory
  | file (content : List UInt8)
  | link (target : Path)
  deriving DecidableEq, Repr

namespace Entry

/-- Whether an entry is a file. -/
def isFile : Entry -> Bool
  | .file _ => true
  | _ => false

end Entry

/-- A file tree with a working directory. -/
structure FileTree where
  /-- All entries but the root, by their locations. -/
  entries : List (Location × Entry)
  /-- Where relative paths start. -/
  workingDirectory : Location
  deriving DecidableEq, Repr

namespace FileTree

/-- The entry at a location. -/
def entry? (tree : FileTree) (location : Location) : Option Entry :=
  if location.isEmpty then some .directory else tree.entries.lookup location

/-- Put an entry at a location, in the place of an older one. -/
def put (tree : FileTree) (location : Location) (entry : Entry) : FileTree :=
  let others := tree.entries.filter fun (other, _) => other != location
  { tree with entries := others ++ [(location, entry)] }

/-- Put an entry at the location that names lead to from a given one, with the
directories that are missing on the way. -/
def plant (tree : FileTree) (location : Location) (names : List Text) (entry : Entry) :
    FileTree :=
  match names with
  | [] => tree
  | [name] => tree.put (location ++ [name]) entry
  | name :: rest =>
      let there := location ++ [name]
      let tree := if (tree.entry? there).isSome then tree else tree.put there .directory
      tree.plant there rest entry

/-- A tree that holds a working directory and nothing in it. -/
def ofWorkingDirectory (location : Location) : FileTree :=
  plant { entries := [], workingDirectory := location } [] location .directory

/-- The steps that a path asks for: its names, `.` and `..`.  A slash at the end
asks for a directory, as `.` does. -/
def stepsOf (path : Path) : List Text :=
  let steps := path.pieces.filter fun piece => !piece.isEmpty
  if path.text.getLast? = some '/' then steps ++ [['.']] else steps

/-- Where a path starts. -/
def startOf (tree : FileTree) (path : Path) : Location :=
  if path.isAbsolute then [] else tree.workingDirectory

/-- Take steps from a location.  The last step may lead to a location without an
entry.  A link at the last step is followed only on request. -/
def walk
    (tree : FileTree)
    (follow : Bool)
    (links : Nat)
    (here : Location)
    (steps : List Text) :
    Except AccessError Location :=
  match steps with
  | [] => .ok here
  | step :: rest =>
      match tree.entry? here with
      | none => .error .notFound
      | some (.file _) => .error .notADirectory
      | some (.link _) => .error .notADirectory
      | some .directory =>
          if step = ['.'] then
            walk tree follow links here rest
          else if step = ['.', '.'] then
            walk tree follow links here.dropLast rest
          else
            let there := here ++ [step]
            match tree.entry? there with
            | none => if rest.isEmpty then .ok there else .error .notFound
            | some (.link target) =>
                if rest.isEmpty && !follow then
                  .ok there
                else
                  match links with
                  | 0 => .error .tooManyLinks
                  | links + 1 =>
                      let start := if target.isAbsolute then [] else here
                      if target.text.isEmpty then
                        .error .notFound
                      else
                        walk tree follow links start (stepsOf target ++ rest)
            | some _ => walk tree follow links there rest
termination_by (links, steps.length)

/-- The number of links that one path may meet. -/
def linkLimit : Nat := 40

/-- The location of a path, which need not have an entry. -/
def locate (tree : FileTree) (follow : Bool) (path : Path) : Except AccessError Location :=
  if path.text.isEmpty then
    .error .notFound
  else
    tree.walk follow linkLimit (tree.startOf path) (stepsOf path)

/-- The entry that a path leads to, along links. -/
def find? (tree : FileTree) (path : Path) : Option Entry :=
  match tree.locate true path with
  | .ok location => tree.entry? location
  | .error _ => none

/-- Whether a path leads to a directory. -/
def isDirectory (tree : FileTree) (path : Path) : Bool :=
  tree.find? path == some .directory

/-- Whether a path leads to a file. -/
def isFile (tree : FileTree) (path : Path) : Bool :=
  match tree.find? path with
  | some (.file _) => true
  | _ => false

/-- Whether a path leads to anything, or names a link. -/
def hasEntry (tree : FileTree) (path : Path) : Bool :=
  (tree.find? path).isSome ||
    match tree.locate false path with
    | .ok location => (tree.entry? location).isSome
    | .error _ => false

/-- What follows a location in another one below it. -/
def below? (location other : Location) : Option Location :=
  if location.isPrefixOf other then
    match other.drop location.length with
    | [] => none
    | names => some names
  else
    none

/-- The entries below a location, each with the names that lead to it. -/
def entriesBelow (tree : FileTree) (location : Location) : List (Location × Entry) :=
  tree.entries.filterMap fun (other, entry) =>
    (below? location other).map fun names => (names, entry)

/-- Put an entry below the working directory, at a path of plain names. -/
def plantBelow (tree : FileTree) (path : Path) (entry : Entry) : FileTree :=
  tree.plant tree.workingDirectory (path.pieces.filter fun piece => !piece.isEmpty) entry

/-- Everything below the working directory: files, links and empty directories,
each with its path. -/
def leaves (tree : FileTree) : List (Path × Entry) :=
  let below := tree.entriesBelow tree.workingDirectory
  below.filterMap fun (names, entry) =>
    let path : Path := ⟨Text.joinOn '/' names⟩
    match entry with
    | .directory =>
        let holdsSome := below.any fun (others, _) => (below? names others).isSome
        if holdsSome then none else some (path, entry)
    | _ => some (path, entry)

/-- The names of the entries of the directory that a path leads to. -/
def children (tree : FileTree) (path : Path) : List Text :=
  match tree.locate true path with
  | .error _ => []
  | .ok location =>
      (tree.entriesBelow location).filterMap fun (names, _) =>
        match names with
        | [name] => some name
        | _ => none

/-- The content of the file that a path leads to. -/
def read (tree : FileTree) (path : Path) : Except AccessError (List UInt8) :=
  match tree.locate true path with
  | .error error => .error error
  | .ok location =>
      match tree.entry? location with
      | some (.file content) => .ok content
      | some .directory => .error .isADirectory
      | some (.link _) => .error .tooManyLinks
      | none => .error .notFound

/-- Write the file that a path leads to, which is made if there is none. -/
def write (tree : FileTree) (path : Path) (content : List UInt8) :
    Except AccessError FileTree :=
  match tree.locate true path with
  | .error error => .error error
  | .ok location =>
      match tree.entry? location with
      | some .directory => .error .isADirectory
      | _ => .ok (tree.put location (.file content))

/-- Make one directory. -/
def makeDirectory (tree : FileTree) (path : Path) : Except AccessError FileTree :=
  let bare : Path := ⟨(path.text.reverse.dropWhile (· == '/')).reverse⟩
  if bare.text.isEmpty then
    .error (if path.text.isEmpty then .notFound else .alreadyExists)
  else
    match tree.locate false bare with
    | .error error => .error error
    | .ok location =>
        match tree.entry? location with
        | some _ => .error .alreadyExists
        | none => .ok (tree.put location .directory)

/-- A path and the paths above it, up to a given number of them. -/
def ancestors : (limit : Nat) -> Path -> List Path
  | 0, _ => []
  | limit + 1, path =>
      match path.parent? with
      | some parent => path :: ancestors limit parent
      | none => [path]

/-- Make a directory that may be there already. -/
def haveDirectory (tree : FileTree) (path : Path) : FileTree × Option AccessError :=
  match tree.makeDirectory path with
  | .ok tree => (tree, none)
  | .error error => (tree, if tree.isDirectory path then none else some error)

/-- Make a directory after the directories above it, given the paths of all of
them with the innermost first.  What was made stays when a later one fails. -/
def makeAncestors (tree : FileTree) : List Path -> FileTree × Option AccessError
  | [] => (tree, none)
  | path :: above =>
      if path.text.isEmpty then
        (tree, none)
      else
        match tree.haveDirectory path with
        | (tree, some .notFound) =>
            match makeAncestors tree above with
            | (tree, some error) => (tree, some error)
            | (tree, none) => tree.haveDirectory path
        | made => made

/-- Make a directory and all directories above it that are missing. -/
def makeDirectories (tree : FileTree) (path : Path) : FileTree × Option AccessError :=
  tree.makeAncestors (ancestors (path.text.length + 1) path)

end FileTree
end FortranDocs
