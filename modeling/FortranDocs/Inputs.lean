import FortranDocs.Storage

/-!
# Input files

The arguments of a run name files, directories or wildcard patterns.  Each file
they lead to is an input, together with its place below an output directory.  How
files are found is up to the storage.

`SourceFile.listing` puts inputs into the order of their paths and leaves out
repeated ones; `Clash.find?` finds two inputs with the same place.
-/

namespace FortranDocs

/-- An input file. -/
structure SourceFile where
  /-- The path at which the file was found. -/
  path : Path
  /-- The place of the file below an output directory. -/
  relative : Path
  deriving DecidableEq, Repr

namespace SourceFile

/-- The file at a path that was found from a root.  Its place is what follows the
root in the path, or else the bare file name. -/
def under (root path : Path) : SourceFile :=
  let bare : Path := (path.fileName?.map Path.mk).getD path
  match Path.dropFront? root path with
  | some relative => { path, relative := if relative.text.isEmpty then bare else relative }
  | none => { path, relative := bare }

/-- The order of files: by their paths, and then by their places. -/
def precedes (left right : SourceFile) : Bool :=
  inOrder Path.precedes [left.path, left.relative] [right.path, right.relative]

/-- Leave out every file whose path is the same as that of the file in front. -/
def withoutRepeats : List SourceFile -> List SourceFile
  | [] => []
  | file :: rest => file :: go file rest
where
  /-- Leave out repeats behind a file. -/
  go (previous : SourceFile) : List SourceFile -> List SourceFile
    | [] => []
    | file :: rest =>
        if file.path.same previous.path then go previous rest else file :: go file rest

/-- Files in order, each path once. -/
def listing (files : List SourceFile) : List SourceFile :=
  withoutRepeats (files.mergeSort precedes)

end SourceFile

/-- Two inputs that have the same place below an output directory. -/
structure Clash where
  /-- The path of the earlier input. -/
  first : Path
  /-- The path of the later input. -/
  second : Path
  /-- The place of the later input. -/
  target : Path
  deriving DecidableEq, Repr

namespace Clash

/-- The wording of a clash. -/
def message (clash : Clash) : String :=
  s!"{clash.first.display} and {clash.second.display} would both be written to {clash.target.display}"

/-- Look for a clash among files, behind files that have none. -/
def findFrom (seen : List SourceFile) : List SourceFile -> Option Clash
  | [] => none
  | file :: rest =>
      match seen.find? fun earlier => earlier.relative.same file.relative with
      | some earlier =>
          some { first := earlier.path, second := file.path, target := file.relative }
      | none => findFrom (seen ++ [file]) rest

/-- The first clash among files. -/
def find? (files : List SourceFile) : Option Clash :=
  findFrom [] files

end Clash

namespace Pattern

/-- The leading components of a pattern without wildcards. -/
def fixedPart (text : Text) : Path :=
  let isFixed (component : Component) : Bool :=
    match component with
    | .name name => !(name.any fun character => character ∈ ['*', '?', '['])
    | _ => true
  let fixed := (Path.mk text).components.takeWhile isFixed
  fixed.foldl (fun path component =>
    match component with
    | .root => ⟨['/']⟩
    | .current => path.child ['.']
    | .parent => path.child ['.', '.']
    | .name name => path.child name) ⟨[]⟩

end Pattern

/-- Why no inputs can be listed: a pattern is faulty, or a directory cannot be read. -/
inductive InputError
  | pattern (text : Text) (cause : Failure)
  | directory (path : Path) (cause : Failure)
  deriving DecidableEq, Repr

namespace InputError

/-- The error as a failure with its causes. -/
def toFailure : InputError -> Failure
  | .pattern text cause =>
      let shown := String.ofList text
      cause.within s!"invalid glob pattern: {shown}"
  | .directory path cause => cause.within s!"failed to read directory: {path.display}"

end InputError

namespace Inputs

/-- The files with one of some extensions among the entries below a directory, up to
the first entry that cannot be read. -/
def ofWalk (extensions : List Text) (directory : Path) :
    List (Except Failure Walked) -> Except Failure (List SourceFile)
  | [] => .ok []
  | .error cause :: _ => .error cause
  | .ok entry :: rest =>
      (ofWalk extensions directory rest).map fun files =>
        if entry.isFile && entry.path.hasExtension extensions then
          SourceFile.under directory entry.path :: files
        else
          files

/-- The files of a directory with one of some extensions, in the directories below it
only on request. -/
def ofDirectory
    {Store : Type}
    [Discovery Store]
    (store : Store)
    (extensions : List Text)
    (recursive : Bool)
    (directory : Path) :
    Except InputError (List SourceFile) :=
  let depth := if recursive then none else some 1
  match ofWalk extensions directory (Discovery.walk store depth directory) with
  | .error cause => .error (.directory directory cause)
  | .ok files => .ok files

/-- The files that match a pattern.  Matches that cannot be read are left out. -/
def ofPattern
    {Store : Type}
    [Discovery Store]
    (store : Store)
    (text : Text) :
    Except InputError (List SourceFile) :=
  match Discovery.glob store text with
  | .error cause => .error (.pattern text cause)
  | .ok found =>
      let paths := (found.filterMap Except.toOption).filter (Discovery.isFile store)
      .ok (paths.map (SourceFile.under (Pattern.fixedPart text)))

/-- The files that one argument leads to: the file itself, the files of a
directory, or the matches of a pattern. -/
def ofArgument
    {Store : Type}
    [Discovery Store]
    (store : Store)
    (extensions : List Text)
    (recursive : Bool)
    (argument : Text) :
    Except InputError (List SourceFile) :=
  let path : Path := ⟨argument⟩
  if Discovery.isFile store path then
    .ok [SourceFile.under (path.parent?.getD ⟨[]⟩) path]
  else if Discovery.isDirectory store path then
    ofDirectory store extensions recursive path
  else
    ofPattern store argument

/-- Whether an argument is taken as a pattern. -/
def takesAsPattern {Store : Type} [Discovery Store] (store : Store) (argument : Text) : Bool :=
  !Discovery.isFile store ⟨argument⟩ && !Discovery.isDirectory store ⟨argument⟩

end Inputs

/-- What became of the arguments of a run. -/
structure Expansion where
  /-- The patterns that led to no file, in order. -/
  unmatched : List Text := []
  /-- The files found so far, or the first fault. -/
  files : Except InputError (List SourceFile) := .ok []

namespace Expansion

/-- Expand one more argument, unless there was a fault. -/
def extend
    {Store : Type}
    [Discovery Store]
    (store : Store)
    (extensions : List Text)
    (recursive : Bool)
    (expansion : Expansion)
    (argument : Text) :
    Expansion :=
  match expansion.files with
  | .error _ => expansion
  | .ok files =>
      match Inputs.ofArgument store extensions recursive argument with
      | .error error => { expansion with files := .error error }
      | .ok found =>
          if found.isEmpty && Inputs.takesAsPattern store argument then
            { expansion with unmatched := expansion.unmatched ++ [argument] }
          else
            { expansion with files := .ok (files ++ found) }

/-- Expand arguments into the list of inputs. -/
def ofArguments
    {Store : Type}
    [Discovery Store]
    (store : Store)
    (extensions : List Text)
    (recursive : Bool)
    (arguments : List Text) :
    Expansion :=
  let expansion := arguments.foldl (extend store extensions recursive) {}
  { expansion with files := expansion.files.map SourceFile.listing }

end Expansion
end FortranDocs
