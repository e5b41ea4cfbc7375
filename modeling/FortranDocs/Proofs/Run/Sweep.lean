import FortranDocs.Proofs.Run.FileMap
import FortranDocs.Run.Outcome

/-!
# The course of a run over files

`Task.treat` says what a run makes of one file, given the content of the file and what the engine
remembers, and `Task.sweep` puts these steps together.  A run over a map of files is such a sweep
over the contents that the files had before the run, provided that nothing is written to a later
input: `Task.through_eq_sweep`.
-/

namespace FortranDocs

namespace SourceFile

/-- Where the result for a file goes: over the file, or to its place below an output
directory. -/
def target (output : Option Path) (file : SourceFile) : Path :=
  match output with
  | some directory => directory.join file.relative
  | none => file.path

end SourceFile

namespace Tree

/-- Whether a text was read that does not parse. -/
def isUnparsed (content : Except ReadError Text) : Bool :=
  match content with
  | .error _ => false
  | .ok text => !(parse text).isOk

end Tree

namespace FileStep

variable
  {Store Memory : Type}
  {step : FileStep Store Memory}
  {files : List SourceFile}
  {progress after : Progress Store Memory}

/-- Two runs one after the other, unless the first one stops. -/
theorem through_append (front back : List SourceFile) (progress : Progress Store Memory) :
    through step (front ++ back) progress =
      match through step front progress with
      | (progress, some error) => (progress, some error)
      | (progress, none) => through step back progress := by
  induction front generalizing progress with
  | nil => rfl
  | cons file rest inductionHypothesis =>
      simp only [List.cons_append, through]
      rcases step file progress with ⟨next, _ | error⟩
      · exact inductionHypothesis next
      · rfl

/-- An error at which a run stops is the error of the run. -/
theorem throughAll_of_stopped
    {error : RunError}
    (ran : through step files progress = (after, some error)) :
    throughAll step files progress = (after, some error) := by
  simp only [throughAll, ran]

/-- A run that does not stop counts the files that do not parse. -/
theorem throughAll_of_finished (ran : through step files progress = (after, none)) :
    throughAll step files progress =
      (after,
        if after.failed = 0 then none else some (.unparsed after.failed files.length)) := by
  cases after_failed : after.failed with
  | zero => simp [throughAll, ran, after_failed]
  | succ others => simp [throughAll, ran, after_failed]

/-- Files that do not parse make no difference to where a run ends. -/
theorem fst_throughAll
    (step : FileStep Store Memory)
    (files : List SourceFile)
    (progress : Progress Store Memory) :
    (throughAll step files progress).1 = (through step files progress).1 := by
  rcases ran : through step files progress with ⟨after, _ | error⟩
  · rw [throughAll_of_finished ran]
  · rw [throughAll_of_stopped ran]

end FileStep

/-- What a run makes of a file. -/
structure Treatment (Memory : Type) where
  /-- The text that is written, if any. -/
  written : Option Text
  /-- What the engine remembers behind the file. -/
  memory : Memory
  /-- The error at which the run stops, if it does. -/
  error : Option RunError

/-- What a run makes of files, one after the other. -/
structure Sweep (Memory : Type) where
  /-- For each file that the run gets through, the text that is written for it, if any. -/
  results : List (Option Text)
  /-- What the engine remembers in the end. -/
  memory : Memory
  /-- The error at which the run stops, if it does. -/
  error : Option RunError

namespace Task

variable {Memory Place : Type}

/-- The output directory, if there is one. -/
def output : Task Memory -> Option Path
  | list => none
  | document _ _ output => output

/-- What a task makes of a file.  In place nothing is written if nothing was documented. -/
def treat
    (task : Task Memory)
    (file : SourceFile)
    (content : Except ReadError Text)
    (memory : Memory) :
    Treatment Memory :=
  match content with
  | .error cause => { written := none, memory, error := some (.unreadable file.path cause) }
  | .ok text =>
      match Tree.parse text with
      | .error _ => { written := none, memory, error := none }
      | .ok tree =>
          match task with
          | list => { written := none, memory, error := none }
          | document engine overwrite output =>
              match tree.document engine overwrite memory with
              | (_, pass, some failure) =>
                  { written := none
                    memory := pass.memory
                    error := some (.undocumented file.path failure) }
              | (result, pass, none) =>
                  { written :=
                      if output.isSome || pass.report.changed then some result.source else none
                    memory := pass.memory
                    error := none }

/-- What a task makes of files with some contents, up to the first error. -/
def sweep (task : Task Memory) (contents : SourceFile -> Except ReadError Text) :
    List SourceFile -> Memory -> Sweep Memory
  | [], memory => { results := [], memory, error := none }
  | file :: rest, memory =>
      let treatment := task.treat file (contents file) memory
      match treatment.error with
      | some error => { results := [], memory := treatment.memory, error := some error }
      | none =>
          let further := sweep task contents rest treatment.memory
          { further with results := treatment.written :: further.results }

/-- What the engine remembers when a run comes to one of its files. -/
def memoryBefore
    (task : Task Memory)
    (contents : SourceFile -> Except ReadError Text)
    (files : List SourceFile)
    (memory : Memory)
    (index : Nat) :
    Memory :=
  (task.sweep contents (files.take index) memory).memory

/-! ## One file -/

section Treat

variable
  {task : Task Memory}
  {file : SourceFile}
  {content : Except ReadError Text}
  {memory : Memory}

/-- Nothing is written for a file at which a run stops. -/
theorem written_treat_of_error
    {error : RunError}
    (stops : (task.treat file content memory).error = some error) :
    (task.treat file content memory).written = none := by
  revert stops
  fun_cases treat task file content memory <;> simp

/-- Only the result for a file that parses is written. -/
theorem isUnparsed_eq_false_of_written
    {text : Text}
    (writes : (task.treat file content memory).written = some text) :
    task ≠ list ∧ Tree.isUnparsed content = false := by
  revert writes
  fun_cases treat task file content memory with
  | case5 text tree parsed engine overwrite output result pass succeeds =>
      intro _
      exact ⟨nofun, by simp [Tree.isUnparsed, parsed, Except.isOk, Except.toBool]⟩
  | _ => simp

/-- A file that is documented has its result written, unless it is the input itself and nothing was
documented. -/
theorem treat_document
    {engine : Engine Memory}
    {overwrite : Bool}
    {output : Option Path}
    {text : Text}
    {tree result : Tree}
    {pass : Pass Memory}
    (parsed : Tree.parse text = .ok tree)
    (succeeds : tree.document engine overwrite memory = (result, pass, none)) :
    (document engine overwrite output).treat file (.ok text) memory =
      { written := if output.isSome || pass.report.changed then some result.source else none
        memory := pass.memory
        error := none } := by
  simp only [treat, parsed, succeeds]

/-- A file at which no run stops that documents does not parse, or its result is known. -/
theorem exists_of_treat_document
    {engine : Engine Memory}
    {overwrite : Bool}
    {output : Option Path}
    (passes : ((document engine overwrite output).treat file content memory).error = none) :
    ∃ text, content = .ok text ∧
      ((∃ cause, Tree.parse text = .error cause) ∧
          ((document engine overwrite output).treat file content memory).written = none ∨
        ∃ tree result pass, Tree.parse text = .ok tree ∧
          tree.document engine overwrite memory = (result, pass, none) ∧
          ((document engine overwrite output).treat file content memory).written =
            if output.isSome || pass.report.changed then some result.source else none) := by
  cases content with
  | error cause => exact nomatch passes
  | ok text =>
      refine ⟨text, rfl, ?_⟩
      cases parsed : Tree.parse text with
      | error cause => exact .inl ⟨⟨cause, rfl⟩, by simp only [treat, parsed]⟩
      | ok tree =>
          rcases ends : tree.document engine overwrite memory with ⟨result, pass, _ | failure⟩
          · refine .inr ⟨tree, result, pass, rfl, ends, ?_⟩
            rw [treat_document parsed ends]
          · simp [treat, parsed, ends] at passes

end Treat

/-! ## All files -/

section Sweep

variable
  {task : Task Memory}
  {contents other : SourceFile -> Except ReadError Text}
  {files : List SourceFile}
  {memory : Memory}

theorem sweep_cons_of_error
    {file : SourceFile}
    {error : RunError}
    (stops : (task.treat file (contents file) memory).error = some error)
    (rest : List SourceFile) :
    task.sweep contents (file :: rest) memory =
      { results := []
        memory := (task.treat file (contents file) memory).memory
        error := some error } := by
  simp only [sweep, stops]

theorem sweep_cons_of_passes
    {file : SourceFile}
    (passes : (task.treat file (contents file) memory).error = none)
    (rest : List SourceFile) :
    task.sweep contents (file :: rest) memory =
      let treatment := task.treat file (contents file) memory
      let further := task.sweep contents rest treatment.memory
      { further with results := treatment.written :: further.results } := by
  simp only [sweep, passes]

/-- Only the contents of the files matter. -/
theorem sweep_congr
    (same : ∀ file ∈ files, contents file = other file)
    (memory : Memory) :
    task.sweep contents files memory = task.sweep other files memory := by
  induction files generalizing memory with
  | nil => rfl
  | cons file rest inductionHypothesis =>
      obtain ⟨sameHere, sameLater⟩ := List.forall_mem_cons.mp same
      simp only [sweep, sameHere, inductionHypothesis sameLater]

/-- A run that does not stop gets through all files. -/
theorem length_results_sweep (finishes : (task.sweep contents files memory).error = none) :
    (task.sweep contents files memory).results.length = files.length := by
  induction files generalizing memory with
  | nil => rfl
  | cons file rest inductionHypothesis =>
      cases treated : (task.treat file (contents file) memory).error with
      | some error =>
          rw [sweep_cons_of_error treated] at finishes
          exact nomatch finishes
      | none =>
          rw [sweep_cons_of_passes treated] at finishes ⊢
          exact congrArg Nat.succ (inductionHypothesis finishes)

theorem memoryBefore_succ
    {file : SourceFile}
    (passes : (task.treat file (contents file) memory).error = none)
    (rest : List SourceFile)
    (index : Nat) :
    task.memoryBefore contents (file :: rest) memory (index + 1) =
      task.memoryBefore contents rest (task.treat file (contents file) memory).memory index := by
  rw [memoryBefore, List.take_succ_cons, sweep_cons_of_passes passes]
  rfl

/-- What a run makes of a file that it gets through. -/
theorem treat_of_lt_length
    {index : Nat}
    {file : SourceFile}
    (found : files[index]? = some file)
    (inside : index < (task.sweep contents files memory).results.length) :
    let treatment :=
      task.treat file (contents file) (task.memoryBefore contents files memory index)
    (task.sweep contents files memory).results[index]? = some treatment.written ∧
      treatment.error = none := by
  induction files generalizing index memory with
  | nil => exact nomatch found
  | cons first rest inductionHypothesis =>
      cases treated : (task.treat first (contents first) memory).error with
      | some error =>
          rw [sweep_cons_of_error treated] at inside
          exact absurd inside (Nat.not_lt_zero index)
      | none =>
          rw [sweep_cons_of_passes treated] at inside ⊢
          cases index with
          | zero =>
              obtain rfl := Option.some.inj found
              exact ⟨rfl, treated⟩
          | succ index =>
              rw [memoryBefore_succ treated]
              exact inductionHypothesis found (Nat.lt_of_succ_lt_succ inside)

/-- A run that stops does so at the file behind those that it gets through. -/
theorem treat_of_stops
    {error : RunError}
    (stops : (task.sweep contents files memory).error = some error) :
    let index := (task.sweep contents files memory).results.length
    ∃ file, files[index]? = some file ∧
      (task.treat file (contents file) (task.memoryBefore contents files memory index)).error =
        some error := by
  induction files generalizing memory with
  | nil => exact nomatch stops
  | cons first rest inductionHypothesis =>
      cases treated : (task.treat first (contents first) memory).error with
      | some found =>
          rw [sweep_cons_of_error treated] at stops ⊢
          obtain rfl := Option.some.inj stops
          exact ⟨first, rfl, treated⟩
      | none =>
          rw [sweep_cons_of_passes treated] at stops ⊢
          obtain ⟨file, found, stopsThere⟩ := inductionHypothesis stops
          refine ⟨file, found, ?_⟩
          rw [List.length_cons, memoryBefore_succ treated]
          exact stopsThere

end Sweep

/-! ## Runs over maps of files -/

variable [DecidableEq Place]

/-- In a map of files a result is written in any case. -/
theorem write_eq
    (output : Option Path)
    (changed : Bool)
    (text : Text)
    (file : SourceFile)
    (store : FileMap Place) :
    FileStep.write output changed text file store =
      (store.writeSome (file.target output)
        (if output.isSome || changed then some text else none), none) := by
  cases output with
  | none => cases changed <;> rfl
  | some directory =>
      simp only [FileStep.write, FileStep.writeBelow, SourceFile.target]
      split <;> rfl

/-- A file that does not parse is counted, whatever the task. -/
theorem step_of_unparsed
    (task : Task Memory)
    {file : SourceFile}
    {progress : Progress (FileMap Place) Memory}
    {text : Text}
    {cause : ParseError}
    (read : progress.store.read file.path = .ok text)
    (fails : Tree.parse text = .error cause) :
    task.step file progress =
      ({ progress.log [.unparsed file.path cause] with failed := progress.failed + 1 },
        none) := by
  have read_eq : Storage.readText progress.store file.path = .ok text := read
  cases task <;>
    simp only [step, FileStep.check, FileStep.document, FileStep.onTree, read_eq, fails] <;> rfl

/-- A file that cannot be read ends the run, whatever the task. -/
theorem step_of_unreadable
    (task : Task Memory)
    {file : SourceFile}
    {progress : Progress (FileMap Place) Memory}
    {cause : ReadError}
    (unread : progress.store.read file.path = .error cause) :
    task.step file progress = (progress, some (.unreadable file.path cause)) := by
  have read_eq : Storage.readText progress.store file.path = .error cause := unread
  cases task <;>
    simp only [step, FileStep.check, FileStep.document, FileStep.onTree, read_eq]

/-- One step of a run over a map of files. -/
theorem step_eq_treat
    (task : Task Memory)
    (file : SourceFile)
    (progress : Progress (FileMap Place) Memory) :
    let content := progress.store.read file.path
    let treatment := task.treat file content progress.memory
    (task.step file progress).2 = treatment.error ∧
      (task.step file progress).1.memory = treatment.memory ∧
      (task.step file progress).1.store =
        progress.store.writeSome (file.target task.output) treatment.written ∧
      (task.step file progress).1.failed =
        progress.failed + [content].countP Tree.isUnparsed := by
  intro content
  cases read : content with
  | error cause =>
      rw [task.step_of_unreadable read]
      exact ⟨rfl, rfl, rfl, rfl⟩
  | ok text =>
      cases parsed : Tree.parse text with
      | error cause =>
          rw [task.step_of_unparsed read parsed]
          have counted : [Except.ok text].countP Tree.isUnparsed = 1 := by
            simp [Tree.isUnparsed, parsed, Except.isOk, Except.toBool]
          simp only [treat, parsed, counted]
          exact ⟨trivial, rfl, rfl, trivial⟩
      | ok tree =>
          have notCounted : [Except.ok text].countP Tree.isUnparsed = 0 := by
            simp [Tree.isUnparsed, parsed, Except.isOk, Except.toBool]
          have read_eq : Storage.readText progress.store file.path = .ok text := read
          rw [notCounted]
          cases task with
          | list =>
              simp only [step, FileStep.check, FileStep.onTree, read_eq, parsed, treat]
              exact ⟨trivial, trivial, rfl, rfl⟩
          | document engine overwrite output =>
              simp only [step, FileStep.document, FileStep.onTree, read_eq, parsed, treat]
              rcases ends : tree.document engine overwrite progress.memory with
                ⟨result, pass, _ | failure⟩
              · simp only [write_eq]
                exact ⟨trivial, rfl, rfl, rfl⟩
              · exact ⟨rfl, rfl, rfl, rfl⟩

/-- A run over a map of files.  As nothing is written to a later input, every file is read as it
was before the run. -/
theorem through_eq_sweep
    {task : Task Memory}
    {files : List SourceFile}
    {progress : Progress (FileMap Place) Memory}
    (apart :
      files.Pairwise fun file later =>
        progress.store.place (file.target task.output) ≠ progress.store.place later.path) :
    let contents := fun file : SourceFile => progress.store.read file.path
    let sweep := task.sweep contents files progress.memory
    let ran := FileStep.through task.step files progress
    ran.2 = sweep.error ∧ ran.1.memory = sweep.memory ∧
      ran.1.store = progress.store.writeAll
        ((files.map (SourceFile.target task.output)).zip sweep.results) ∧
      (sweep.error = none →
        ran.1.failed = progress.failed + (files.map contents).countP Tree.isUnparsed) := by
  intro contents
  induction files generalizing progress with
  | nil => exact ⟨rfl, rfl, rfl, fun _ => rfl⟩
  | cons file rest inductionHypothesis =>
      obtain ⟨fileApart, restApart⟩ := List.pairwise_cons.mp apart
      obtain ⟨error_eq, memory_eq, store_eq, failed_eq⟩ := step_eq_treat task file progress
      rcases taken : task.step file progress with ⟨next, stop⟩
      rw [taken] at error_eq memory_eq store_eq failed_eq
      dsimp only at error_eq memory_eq store_eq failed_eq
      cases stop with
      | some error =>
          rw [sweep_cons_of_error error_eq.symm]
          simp only [FileStep.through, taken]
          refine ⟨trivial, memory_eq, ?_, nofun⟩
          rw [store_eq, written_treat_of_error error_eq.symm, List.zip_nil_right]
          rfl
      | none =>
          have samePlace : next.store.place = progress.store.place := by
            rw [store_eq, FileMap.place_writeSome]
          have sameContents : ∀ later ∈ rest, next.store.read later.path = contents later := by
            intro later present
            rw [store_eq, FileMap.read_writeSome_of_ne (fileApart later present)]
          obtain ⟨stop_eq, last_eq, finalStore, counted⟩ :=
            inductionHypothesis (by rwa [samePlace] : rest.Pairwise _)
          rw [sweep_congr sameContents, memory_eq] at stop_eq last_eq finalStore counted
          rw [sweep_cons_of_passes error_eq.symm]
          simp only [FileStep.through, taken]
          refine ⟨stop_eq, last_eq, ?_, fun finishes => ?_⟩
          · rw [finalStore, store_eq]
            rfl
          · rw [counted finishes, failed_eq, List.map_congr_left sameContents, Nat.add_assoc,
              ← List.countP_append]
            rfl

end Task
end FortranDocs
