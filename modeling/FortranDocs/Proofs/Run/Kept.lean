import FortranDocs.FileTree.Search
import FortranDocs.Proofs.FileTree.Changes
import FortranDocs.Proofs.Run.Sweep
import FortranDocs.Run.Outcome

/-!
# What runs keep

A run changes a storage only by writing files and making directories.  So what these keep is kept by
every run, with any command line and any settings and also if it fails half-way:
`Run.perform_keeps`.  A file tree stays well-formed, `FileTree.WellFormed.perform`.

A run that only lists undocumented constructs changes nothing, `Run.store_perform_of_check`.
-/

namespace FortranDocs

/-- Whether writing files and making directories keep a property of storages. -/
structure Storage.Keeps {Store : Type} [Storage Store] (holds : Store -> Prop) : Prop where
  /-- A file that is written keeps it. -/
  written :
    ∀ {store after : Store} {path : Path} {text : Text},
      holds store → Storage.writeText store path text = .ok after → holds after
  /-- A directory keeps it, also if it could not be made. -/
  made :
    ∀ {store : Store} (path : Path),
      holds store → holds (Storage.makeDirectories store path).1

variable
  {Store Memory : Type}
  [Storage Store]
  {holds : Store -> Prop}
  {store : Store}

namespace FileStep

theorem writeTo_keeps
    (keeps : Storage.Keeps holds)
    (before : holds store)
    (target : Path)
    (text : Text) :
    holds (writeTo target text store).1 := by
  unfold writeTo
  split
  · exact before
  · next after written => exact keeps.written before written

theorem writeBelow_keeps
    (keeps : Storage.Keeps holds)
    (before : holds store)
    (target : Path)
    (text : Text) :
    holds (writeBelow target text store).1 := by
  unfold writeBelow
  split
  · exact writeTo_keeps keeps before target text
  · next parent _ =>
      have made := keeps.made parent before
      split
      · next ends => rwa [ends] at made
      · next ends =>
          rw [ends] at made
          exact writeTo_keeps keeps made target text

theorem write_keeps
    (keeps : Storage.Keeps holds)
    (before : holds store)
    (outputDirectory : Option Path)
    (changed : Bool)
    (text : Text)
    (file : SourceFile) :
    holds (write outputDirectory changed text file store).1 := by
  unfold write
  split
  · exact writeBelow_keeps keeps before _ text
  · split
    · exact writeTo_keeps keeps before file.path text
    · exact before

theorem onTree_keeps
    {step : Tree -> FileStep Store Memory}
    {progress : Progress Store Memory}
    (before : holds progress.store)
    (file : SourceFile)
    (kept : ∀ tree, holds (step tree file progress).1.store) :
    holds (onTree step file progress).1.store := by
  unfold onTree
  split
  · exact before
  · split
    · exact before
    · exact kept _

/-- Listing undocumented constructs changes nothing. -/
theorem check_keeps
    {progress : Progress Store Memory}
    (before : holds progress.store)
    (file : SourceFile) :
    holds (check file progress).1.store :=
  onTree_keeps before file fun _ => before

omit [Storage Store] in
/-- What every step keeps is kept by a run over all files, wherever it stops. -/
theorem throughAll_keeps
    {step : FileStep Store Memory}
    {progress : Progress Store Memory}
    (kept : ∀ file progress, holds progress.store → holds (step file progress).1.store)
    (before : holds progress.store)
    (files : List SourceFile) :
    holds (throughAll step files progress).1.store := by
  rw [fst_throughAll]
  induction files generalizing progress with
  | nil => exact before
  | cons file rest inductionHypothesis =>
      have onward := kept file progress before
      rw [through]
      rcases taken : step file progress with ⟨next, _ | error⟩
      · rw [taken] at onward
        exact inductionHypothesis onward
      · rwa [taken] at onward

end FileStep

namespace Task

/-- One step of a run keeps what writing keeps. -/
theorem step_keeps
    (keeps : Storage.Keeps holds)
    (task : Task Memory)
    (file : SourceFile)
    (progress : Progress Store Memory)
    (before : holds progress.store) :
    holds (task.step file progress).1.store := by
  cases task with
  | list => exact FileStep.check_keeps before file
  | document engine overwrite output =>
      refine FileStep.onTree_keeps before file fun tree => ?_
      rcases tree.document engine overwrite progress.memory with ⟨result, pass, _ | failure⟩
      · exact FileStep.write_keeps keeps before output _ _ file
      · exact before

end Task

namespace Run

variable {engines : Engines Memory} {line : CommandLine} {settings : Settings}

omit [Storage Store] in
/-- A run over the standard input changes nothing. -/
theorem store_overInput
    (engines : Engines Memory)
    (memory : Memory)
    (store : Store)
    (line : CommandLine)
    (settings : Settings)
    (input : List UInt8) :
    (overInput engines memory store line settings input).store = store := by
  unfold overInput
  repeat' split
  all_goals rfl

theorem prepareOutput_keeps
    (keeps : Storage.Keeps holds)
    (before : holds store)
    (sources : List SourceFile)
    (directory : Path) :
    holds (prepareOutput store sources directory).1 := by
  have made := keeps.made directory before
  unfold prepareOutput
  split
  · exact before
  · split <;>
      · next ends => rwa [ends] at made

theorem prepare_keeps
    (keeps : Storage.Keeps holds)
    (before : holds store)
    (engines : Engines Memory)
    (line : CommandLine)
    (settings : Settings)
    (sources : List SourceFile) :
    holds (prepare engines store line settings sources).1 := by
  unfold prepare
  split
  · exact before
  · cases line.output with
    | none => cases engines settings <;> exact before
    | some directory =>
        have made := prepareOutput_keeps keeps before sources directory
        dsimp only
        split
        · next ends => rwa [ends] at made
        · next ends =>
            rw [ends] at made
            cases engines settings <;> exact made

theorem overSources_keeps
    (keeps : Storage.Keeps holds)
    (before : holds store)
    (engines : Engines Memory)
    (memory : Memory)
    (line : CommandLine)
    (settings : Settings)
    (events : List Event)
    (sources : List SourceFile) :
    holds (overSources engines memory store line settings events sources).store := by
  have ready := prepare_keeps keeps before engines line settings sources
  unfold overSources
  split
  · next ends => rwa [ends] at ready
  · next ends =>
      rw [ends] at ready
      exact FileStep.throughAll_keeps (Task.step_keeps keeps _) ready sources

theorem store_overSources_of_check
    (checks : line.check = true)
    (engines : Engines Memory)
    (memory : Memory)
    (store : Store)
    (settings : Settings)
    (events : List Event)
    (sources : List SourceFile) :
    (overSources engines memory store line settings events sources).store = store := by
  have ready : prepare engines store line settings sources = (store, .ok .list) := by
    simp only [prepare, checks, if_true]
  let start : Progress Store Memory := { store, memory, events }
  let unchanged (other : Store) : Prop := other = store
  have step (file : SourceFile) (progress : Progress Store Memory)
      (before : unchanged progress.store) :
      unchanged (FileStep.check file progress).1.store :=
    FileStep.check_keeps before file
  have begun : unchanged start.store := rfl
  have kept := FileStep.throughAll_keeps step begun sources
  simp only [overSources, ready]
  exact kept

variable [Discovery Store]

theorem withLine_keeps
    (keeps : Storage.Keeps holds)
    (before : holds store)
    (engines : Engines Memory)
    (memory : Memory)
    (line : CommandLine)
    (input : List UInt8) :
    holds (withLine engines memory store line input).store := by
  unfold withLine
  split
  · exact before
  · next settings _ =>
      dsimp only
      split
      · rwa [store_overInput]
      · unfold overFiles
        dsimp only
        split
        · exact before
        · exact before
        · exact overSources_keeps keeps before engines memory line _ _ _

/-- A run with any arguments keeps what writing files and making directories keep. -/
theorem perform_keeps
    (keeps : Storage.Keeps holds)
    (before : holds store)
    (engines : Engines Memory)
    (memory : Memory)
    (arguments : List Text)
    (input : List UInt8) :
    holds (perform engines memory store arguments input).store := by
  unfold perform
  split
  · exact withLine_keeps keeps before engines memory _ input
  · exact before
  · exact before
  · exact before

/-- A run that only lists undocumented constructs changes nothing. -/
theorem store_perform_of_check
    {arguments : List Text}
    (parsed : CommandLine.parse arguments = .ok line)
    (checks : line.check = true)
    (engines : Engines Memory)
    (memory : Memory)
    (store : Store)
    (input : List UInt8) :
    (perform engines memory store arguments input).store = store := by
  simp only [perform, parsed, Result.outcome]
  unfold withLine
  split
  · rfl
  · dsimp only
    split
    · exact store_overInput engines memory store line _ input
    · unfold overFiles
      dsimp only
      split
      · rfl
      · rfl
      · exact store_overSources_of_check checks engines memory store _ _ _

end Run

namespace FileTree

/-- Writing files and making directories keep a file tree well-formed. -/
theorem keeps_wellFormed : Storage.Keeps WellFormed where
  written := fun before written => before.write written
  made := fun path before => before.makeDirectories path

/-- A run over a well-formed file tree leaves it well-formed. -/
theorem WellFormed.perform
    {tree : FileTree}
    (wellFormed : tree.WellFormed)
    (engines : Engines Memory)
    (memory : Memory)
    (arguments : List Text)
    (input : List UInt8) :
    (Run.perform engines memory tree arguments input).store.WellFormed :=
  Run.perform_keeps keeps_wellFormed wellFormed engines memory arguments input

end FileTree
end FortranDocs
