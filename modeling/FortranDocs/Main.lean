import FortranDocs.FileTree.Search
import FortranDocs.Program.Launch
import FortranDocs.Run.Outcome

/-!
# The program

The working directory is read into a file tree, with whatever else the command line
names; the run is performed on that tree; and the entries that changed are written
back.
-/

namespace FortranDocs
namespace Main

/-- The absolute path of a location. -/
def pathOf (location : Location) : String :=
  "/" ++ "/".intercalate (location.map String.ofList)

/-- The location of an absolute path. -/
def locationOf (path : String) : Location :=
  (Path.mk path.toList).pieces.filter fun piece => !piece.isEmpty

/-- Read what is at a location into a file tree.  Entries that cannot be read are
left out. -/
partial def load (tree : FileTree) (location : Location) : IO FileTree := do
  if (tree.entry? location).isSome && !location.isEmpty then
    return tree
  let path := (← IO.currentDir) / pathOf location
  try
    let type := (← path.symlinkMetadata).type
    if type == .symlink then
      let target := (← IO.FS.realPath path).toString
      let tree := tree.plant [] location (.link ⟨target.toList⟩)
      load tree (locationOf target)
    else if type == .dir then
      let mut tree := tree.plant [] location .directory
      for entry in ← path.readDir do
        tree ← load tree (location ++ [entry.fileName.toList])
      return tree
    else if type == .file then
      let content ← IO.FS.readBinFile path
      return tree.plant [] location (.file content.toList)
    else
      return tree
  catch _ =>
    return tree

/-- The paths that a command line names, patterns without their wildcards. -/
def namedPaths (line : CommandLine) : List Path :=
  line.paths.map Pattern.fixedPart ++ line.output.toList ++ line.settings.toList

/-- Read the working directory and what a command line names. -/
def loadAll (arguments : List Text) : IO FileTree := do
  let here ← IO.currentDir
  let location := locationOf here.toString
  let mut tree ← load { entries := [], workingDirectory := location } location
  if let .ok line := CommandLine.parse arguments then
    for path in namedPaths line do
      if path.text.isEmpty then
        continue
      try
        let found ← IO.FS.realPath (here / path.display)
        tree ← load tree (locationOf found.toString)
      catch _ =>
        continue
  return tree

/-- Write the entries back in which a tree differs from an earlier one. -/
def store (before after : FileTree) : IO Unit := do
  for (location, entry) in after.entries do
    if before.entry? location != some entry then
      match entry with
      | .directory => IO.FS.createDirAll (pathOf location)
      | .file content => IO.FS.writeBinFile (pathOf location) ⟨content.toArray⟩
      | .link _ => pure ()

/-- Whether a run with some arguments reads its input. -/
def readsInput (arguments : List Text) : Bool :=
  match CommandLine.parse arguments with
  | .ok line => line.paths.isEmpty
  | .error _ => false

/-- Show what a run leaves behind. -/
def report {Store : Type} (outcome : Outcome Store) : IO Unit := do
  let errors ← IO.getStderr
  for line in outcome.log do
    errors.putStrLn line
  IO.print (String.ofList outcome.output)
  if let some error := outcome.misuse then
    errors.putStrLn s!"error: {error.message}"
  if let some failure := outcome.failure then
    errors.putStrLn s!"Error: {failure.report}"

/-- Perform the run that some arguments ask for, and give its exit code. -/
def run (arguments : List Text) : IO UInt32 := do
  let files ← loadAll arguments
  let input ←
    if readsInput arguments then
      (← IO.getStdin).readBinToEnd
    else
      pure .empty
  let engines := Engine.ofSettings (Program.launch files)
  let outcome := Run.perform engines () files arguments input.toList
  store files outcome.store
  report outcome
  return UInt32.ofNat outcome.exitCode

end Main
end FortranDocs

/-- Perform the run that the command line asks for. -/
def main (arguments : List String) : IO UInt32 :=
  FortranDocs.Main.run (arguments.map String.toList)
