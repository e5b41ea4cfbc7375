import FortranDocs.Run.Error
import FortranDocs.Run.Event
import FortranDocs.Run.Listing
import FortranDocs.Storage
import FortranDocs.Tree.Parse

/-!
# Runs over files

A run takes its input files one after the other.  It either lists their
undocumented constructs or documents them, and writes each result over its input,
if it differs, or else to the input's place below an output directory.

A file that does not parse is passed over.  Any other error ends the run, and the
storage is left as it was at that moment.
-/

namespace FortranDocs

/-- How far a run over files has come. -/
structure Progress (Store Memory : Type) where
  /-- The storage. -/
  store : Store
  /-- What the engine remembers. -/
  memory : Memory
  /-- What was printed so far. -/
  output : Text := []
  /-- The events so far, in order. -/
  events : List Event := []
  /-- The number of files that did not parse. -/
  failed : Nat := 0

namespace Progress

/-- The progress with further events. -/
def log
    {Store Memory : Type}
    (progress : Progress Store Memory)
    (events : List Event) :
    Progress Store Memory :=
  { progress with events := progress.events ++ events }

end Progress

/-- A step of a run: it may fail, and it leaves some progress either way. -/
abbrev FileStep (Store Memory : Type) :=
  SourceFile -> Progress Store Memory -> Progress Store Memory × Option RunError

namespace FileStep

/-- Read and parse a file before a step on its tree. -/
def onTree
    {Store Memory : Type}
    [Storage Store]
    (step : Tree -> FileStep Store Memory) :
    FileStep Store Memory :=
  fun file progress =>
    match Storage.readText progress.store file.path with
    | .error error => (progress, some (.unreadable file.path error))
    | .ok text =>
        match Tree.parse text with
        | .error error =>
            let progress := progress.log [.unparsed file.path error]
            ({ progress with failed := progress.failed + 1 }, none)
        | .ok tree => step tree file progress

/-- List the undocumented constructs of a file. -/
def check {Store Memory : Type} [Storage Store] : FileStep Store Memory :=
  onTree fun tree file progress =>
    let listing := tree.listing file.path.display
    ({ progress with output := progress.output ++ listing }, none)

/-- Write a text to a path. -/
def writeTo
    {Store : Type}
    [Storage Store]
    (target : Path)
    (text : Text)
    (store : Store) :
    Store × Option RunError :=
  match Storage.writeText store target text with
  | .error error => (store, some (.unwritable target error))
  | .ok store => (store, none)

/-- Write a text to a path after making the directories above it. -/
def writeBelow
    {Store : Type}
    [Storage Store]
    (target : Path)
    (text : Text)
    (store : Store) :
    Store × Option RunError :=
  match target.parent? with
  | none => writeTo target text store
  | some parent =>
      match Storage.makeDirectories store parent with
      | (store, some error) => (store, some (.directory parent error))
      | (store, none) => writeTo target text store

/-- Write the result for a file: below an output directory in any case, and
otherwise over the file if it changed. -/
def write
    {Store : Type}
    [Storage Store]
    (outputDirectory : Option Path)
    (changed : Bool)
    (text : Text)
    (file : SourceFile)
    (store : Store) :
    Store × Option RunError :=
  match outputDirectory with
  | some directory => writeBelow (directory.join file.relative) text store
  | none => if changed then writeTo file.path text store else (store, none)

/-- Document a file. -/
def document
    {Store Memory : Type}
    [Storage Store]
    (engine : Engine Memory)
    (overwrite : Bool)
    (outputDirectory : Option Path) :
    FileStep Store Memory :=
  onTree fun tree file progress =>
    let (tree, pass, failure) := tree.document engine overwrite progress.memory
    let progress := { progress.log (Event.ofPass pass) with memory := pass.memory }
    match failure with
    | some failure => (progress, some (.undocumented file.path failure))
    | none =>
        let progress := progress.log [.documentedFile file.path pass.report]
        let (store, error) :=
          write outputDirectory pass.report.changed tree.source file progress.store
        ({ progress with store }, error)

/-- Take a step for each of some files, up to the first error. -/
def through
    {Store Memory : Type}
    (step : FileStep Store Memory) :
    List SourceFile -> Progress Store Memory -> Progress Store Memory × Option RunError
  | [], progress => (progress, none)
  | file :: rest, progress =>
      match step file progress with
      | (progress, some error) => (progress, some error)
      | (progress, none) => through step rest progress

/-- Take a step for each of some files.  Files that did not parse are an error in
the end. -/
def throughAll
    {Store Memory : Type}
    (step : FileStep Store Memory)
    (files : List SourceFile)
    (progress : Progress Store Memory) :
    Progress Store Memory × Option RunError :=
  match through step files progress with
  | (progress, some error) => (progress, some error)
  | (progress, none) =>
      if 0 < progress.failed then
        (progress, some (.unparsed progress.failed files.length))
      else
        (progress, none)

end FileStep

/-- What a run is to do with its files. -/
inductive Task (Memory : Type)
  /-- List the undocumented constructs. -/
  | list
  /-- Document the files in place or below an output directory. -/
  | document (engine : Engine Memory) (overwrite : Bool) (output : Option Path)

namespace Task

/-- The step of a task on one file. -/
def step {Store Memory : Type} [Storage Store] : Task Memory -> FileStep Store Memory
  | list => FileStep.check
  | document engine overwrite output => FileStep.document engine overwrite output

end Task
end FortranDocs
