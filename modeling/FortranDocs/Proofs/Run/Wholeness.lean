import FortranDocs.Proofs.Pass.Course
import FortranDocs.Proofs.Run.Preparation
import FortranDocs.Proofs.Run.Sweep
import Mathlib

/-!
# Files are left whole

`Run.leaves_files_whole` states what a run over a map of files leaves behind, whatever its command
line and its settings ask for, whatever the engine answers and wherever the run stops: an input is
as it was, or it holds the complete result for it, and nothing is written for a file that does not
parse.
-/

namespace FortranDocs

namespace Task

variable {Memory Place : Type}

/-- Whether results are written over the inputs. -/
def isInPlace : Task Memory -> Bool
  | document _ _ none => true
  | _ => false

/-- What a task is to leave behind in a map of files. -/
structure LeavesWhole
    [DecidableEq Place]
    (task : Task Memory)
    (store after : FileMap Place)
    (files : List SourceFile)
    (memory : Memory) : Prop where
  /-- Unless results are written over the inputs, no input changes. -/
  inputs :
    task.isInPlace = false → ∀ file ∈ files, after.read file.path = store.read file.path
  /-- A file at which the run stops is as it was in place, and so are all files behind it. -/
  beyond :
    let contents := fun file : SourceFile => store.read file.path
    task.isInPlace = true → ∀ (index : Nat) file, files[index]? = some file →
      (task.sweep contents files memory).results.length ≤ index →
      after.read file.path = store.read file.path
  /-- Every other file is as it was, if it does not parse or nothing was documented, or holds the
  complete result, with the engine in the state in which the run comes to the file. -/
  within :
    let contents := fun file : SourceFile => store.read file.path
    ∀ engine overwrite, task = document engine overwrite none →
      ∀ (index : Nat) file, files[index]? = some file →
        index < (task.sweep contents files memory).results.length →
        ∃ text, store.read file.path = .ok text ∧
          ((∃ cause, Tree.parse text = .error cause) ∧ after.read file.path = .ok text ∨
            ∃ tree result pass,
              Tree.parse text = .ok tree ∧
              tree.document engine overwrite (task.memoryBefore contents files memory index) =
                (result, pass, none) ∧
              after.read file.path =
                .ok (if pass.report.changed then result.source else text))
  /-- Nothing is written but the results for files that parse, each to its target. -/
  elsewhere :
    ∀ path : Path,
      (∀ file ∈ files, Tree.isUnparsed (store.read file.path) = false →
        store.place (file.target task.output) ≠ store.place path) →
      after.read path = store.read path

/-- What is written in a run is the result for a file that parses, and goes to its target. -/
theorem exists_of_mem_zip_results
    {task : Task Memory}
    {contents : SourceFile -> Except ReadError Text}
    {files : List SourceFile}
    {memory : Memory}
    {target : Path}
    {text : Text}
    (present :
      (target, some text) ∈
        (files.map (SourceFile.target task.output)).zip
          (task.sweep contents files memory).results) :
    task ≠ list ∧
      ∃ file ∈ files, target = file.target task.output ∧
        Tree.isUnparsed (contents file) = false := by
  obtain ⟨index, found⟩ := List.mem_iff_getElem?.mp present
  rw [List.getElem?_zip_eq_some, List.getElem?_map, Option.map_eq_some_iff] at found
  obtain ⟨⟨file, inFiles, rfl⟩, result⟩ := found
  have inside := (List.getElem?_eq_some_iff.mp result).1
  have treated := (treat_of_lt_length inFiles inside).1
  have writes := Option.some.inj (treated.symm.trans result)
  obtain ⟨documents, parses⟩ := isUnparsed_eq_false_of_written writes
  exact ⟨documents, file, List.mem_of_getElem? inFiles, rfl, parses⟩

section

variable
  {task : Task Memory}
  {files : List SourceFile}
  {store : FileMap Place}
  {memory : Memory}

/-- Files of which none is the target of another one are read as they were before the run. -/
theorem pairwise_of_apart
    (distinct : (files.map fun file => store.place file.path).Nodup)
    (apart :
      ∀ directory, task.output = some directory →
        ∀ file ∈ files, ∀ input ∈ files,
          store.place (directory.join file.relative) ≠ store.place input.path) :
    files.Pairwise fun file later =>
      store.place (file.target task.output) ≠ store.place later.path := by
  cases output : task.output with
  | none => exact List.pairwise_map.mp distinct
  | some directory =>
      exact List.pairwise_of_forall_mem_list (apart directory output)

variable [DecidableEq Place]

/-- A place stays as it is if no result for a file that parses goes there. -/
theorem read_writeAll_elsewhere
    {path : Path}
    (elsewhere :
      task ≠ list → ∀ file ∈ files, Tree.isUnparsed (store.read file.path) = false →
        store.place (file.target task.output) ≠ store.place path) :
    (store.writeAll ((files.map (SourceFile.target task.output)).zip
      (task.sweep (fun file => store.read file.path) files memory).results)).read path =
      store.read path := by
  apply FileMap.read_writeAll_of_apart
  intro target text present
  obtain ⟨documents, file, inFiles, rfl, parses⟩ := exists_of_mem_zip_results present
  exact elsewhere documents file inFiles parses

/-- What a run in place makes of a file is what is written for it, if anything. -/
theorem read_writeAll_inPlace
    {index : Nat}
    {file : SourceFile}
    (inPlace : task.isInPlace = true)
    (distinct : (files.map fun file => store.place file.path).Nodup)
    (found : files[index]? = some file)
    (results : List (Option Text)) :
    (store.writeAll ((files.map (SourceFile.target task.output)).zip results)).read file.path =
      results[index]?.join.elim (store.read file.path) .ok := by
  have output : task.output = none := by
    cases task with
    | list => exact nomatch inPlace
    | document engine overwrite output =>
        cases output with
        | none => rfl
        | some directory => exact nomatch inPlace
  rw [output]
  apply FileMap.read_writeAll_zip
  · rwa [List.map_map]
  · rw [List.getElem?_map, found]
    rfl

/-- What a sweep over different files leaves behind. -/
theorem leavesWhole_of_sweep
    (distinct : (files.map fun file => store.place file.path).Nodup)
    (apart :
      ∀ directory, task.output = some directory →
        ∀ file ∈ files, ∀ input ∈ files,
          store.place (directory.join file.relative) ≠ store.place input.path) :
    let sweep := task.sweep (fun file => store.read file.path) files memory
    task.LeavesWhole store
      (store.writeAll ((files.map (SourceFile.target task.output)).zip sweep.results)) files
      memory where
  inputs := by
    intro notInPlace file inFiles
    apply read_writeAll_elsewhere
    intro documents other otherInFiles _
    cases task with
    | list => exact absurd rfl documents
    | document engine overwrite output =>
        cases output with
        | none => exact nomatch notInPlace
        | some directory => exact apart directory rfl other otherInFiles file inFiles
  beyond := by
    intro contents inPlace index file found beyond
    rw [read_writeAll_inPlace inPlace distinct found, List.getElem?_eq_none beyond]
    rfl
  within := by
    rintro contents engine overwrite rfl index file found inside
    obtain ⟨result_eq, passes⟩ := treat_of_lt_length found inside
    rw [read_writeAll_inPlace rfl distinct found, result_eq, Option.join_some]
    obtain ⟨text, content, outcome⟩ := exists_of_treat_document passes
    refine ⟨text, content, ?_⟩
    rcases outcome with ⟨unparsed, nothing⟩ | ⟨tree, result, pass, parsed, succeeds, writes⟩
    · exact .inl ⟨unparsed, by rw [nothing, ← content]; rfl⟩
    · refine .inr ⟨tree, result, pass, parsed, succeeds, ?_⟩
      rw [writes, Option.isSome_none, Bool.false_or]
      cases pass.report.changed with
      | true => rfl
      | false => exact content
  elsewhere := fun path elsewhere => read_writeAll_elsewhere fun _ => elsewhere

end

end Task

namespace Run

variable
  {Memory Place : Type}
  [DecidableEq Place]
  {engines : Engines Memory}
  {store : FileMap Place}
  {line : CommandLine}
  {settings : Settings}
  {sources : List SourceFile}
  {task : Task Memory}

/-- Without an output directory for it a task works in place or writes nothing. -/
theorem isInPlace_of_asks
    (asked : Asks engines line settings task)
    (elsewhere : line.check = true ∨ line.output.isSome = true) :
    task.isInPlace = false := by
  cases asked with
  | list checks => rfl
  | document works available =>
      obtain ⟨directory, output⟩ :=
        Option.isSome_iff_exists.mp (elsewhere.resolve_left (by simp [works]))
      rw [output]
      rfl

theorem output_of_asks
    {directory : Path}
    (asked : Asks engines line settings task)
    (output : task.output = some directory) :
    line.check = false ∧ line.output = some directory := by
  cases asked with
  | list checks => exact nomatch output
  | document works available => exact ⟨works, output⟩

/-- What a run over a map of files comes to with its task. -/
theorem overSources_eq_sweep
    (ready : (prepare engines store line settings sources).2 = .ok task)
    (apart :
      sources.Pairwise fun file later =>
        store.place (file.target task.output) ≠ store.place later.path)
    (memory : Memory)
    (events : List Event) :
    let contents := fun file : SourceFile => store.read file.path
    let sweep := task.sweep contents sources memory
    let run := overSources engines memory store line settings events sources
    let unparsed := (sources.map contents).countP Tree.isUnparsed
    run.store =
        store.writeAll ((sources.map (SourceFile.target task.output)).zip sweep.results) ∧
      (sweep.error = none →
        run.verdict =
          if unparsed = 0 then .ok (found run.output)
          else .error (.unparsed unparsed sources.length)) ∧
      ∀ error, sweep.error = some error → run.verdict = .error error := by
  intro contents sweep run unparsed
  let start : Progress (FileMap Place) Memory := { store, memory, events }
  have startApart : sources.Pairwise fun file later =>
      start.store.place (file.target task.output) ≠ start.store.place later.path := apart
  obtain ⟨error_eq, -, store_eq, failed_eq⟩ := Task.through_eq_sweep startApart
  rcases ran : FileStep.through task.step sources start with ⟨after, stop⟩
  rw [ran] at error_eq store_eq failed_eq
  cases stop with
  | some error =>
      have run_eq := overSources_of_ready ready (FileStep.throughAll_of_stopped ran)
      have stops : sweep.error = some error := error_eq.symm
      refine ⟨(congrArg Result.store run_eq).trans store_eq, ?_, ?_⟩
      · intro finishes
        exact nomatch stops.symm.trans finishes
      · intro other found
        obtain rfl := Option.some.inj (stops.symm.trans found)
        exact congrArg Result.verdict run_eq
  | none =>
      have run_eq := overSources_of_ready ready (FileStep.throughAll_of_finished ran)
      have finishes : sweep.error = none := error_eq.symm
      have counted : after.failed = unparsed := (failed_eq finishes).trans (Nat.zero_add _)
      refine ⟨(congrArg Result.store run_eq).trans store_eq, ?_, ?_⟩
      · intro _
        simp only [run, run_eq, counted]
        split <;> rfl
      · intro error found
        exact nomatch finishes.symm.trans found

/-- A run over different files leaves each of them whole.  With an output directory, or if
undocumented constructs are only listed, no input changes.  A run that does not come to its task
changes nothing and ends in the error that kept it, and otherwise it does what its command line
and its settings ask for.  If it gets through all files, it ends in an error exactly if some of them
do not parse, and counts them; otherwise it ends in the error at which it stopped. -/
theorem leaves_files_whole
    (engines : Engines Memory)
    (settings : Settings)
    (distinct : (sources.map fun file => store.place file.path).Nodup)
    (apart :
      line.check = false → ∀ directory, line.output = some directory →
        ∀ file ∈ sources, ∀ input ∈ sources,
          store.place (directory.join file.relative) ≠ store.place input.path)
    (memory : Memory)
    (events : List Event) :
    let contents := fun file : SourceFile => store.read file.path
    let prepared := (prepare engines store line settings sources).2
    let run := overSources engines memory store line settings events sources
    let unparsed := (sources.map contents).countP Tree.isUnparsed
    (line.check = true ∨ line.output.isSome = true →
      ∀ file ∈ sources, run.store.read file.path = contents file) ∧
    (∀ error, prepared = .error error → run.verdict = .error error ∧ run.store = store) ∧
    (∀ task, prepared = .ok task ↔
      Asks engines line settings task ∧
        (line.check = false → line.output.isSome = true → Clash.find? sources = none)) ∧
    (∀ task, prepared = .ok task →
      let sweep := task.sweep contents sources memory
      let reached := sweep.results.length
      task.LeavesWhole store run.store sources memory ∧
      (sweep.error = none →
        reached = sources.length ∧
        run.verdict =
          if unparsed = 0 then .ok (found run.output)
          else .error (.unparsed unparsed sources.length)) ∧
      ∀ error, sweep.error = some error →
        run.verdict = .error error ∧
        ∃ file, sources[reached]? = some file ∧
          (task.treat file (contents file)
            (task.memoryBefore contents sources memory reached)).error = some error) ∧
    ∀ [Discovery (FileMap Place)], Starts store line settings events sources →
      ∀ input, withLine engines memory store line input = run := by
  intro contents prepared run unparsed
  have outputApart {task : Task Memory} (ready : prepared = .ok task) (directory : Path)
      (output : task.output = some directory) : ∀ file ∈ sources, ∀ input ∈ sources,
      store.place (directory.join file.relative) ≠ store.place input.path := by
    obtain ⟨works, given⟩ := output_of_asks (prepare_eq_ok_iff.mp ready).1 output
    exact apart works directory given
  have whole {task : Task Memory} (ready : prepared = .ok task) :
      task.LeavesWhole store run.store sources memory := by
    have apart := outputApart ready
    obtain ⟨store_eq, -⟩ :=
      overSources_eq_sweep ready (Task.pairwise_of_apart distinct apart) memory events
    rw [store_eq]
    exact Task.leavesWhole_of_sweep distinct apart
  refine ⟨?_, ?_, fun task => prepare_eq_ok_iff, ?_, ?_⟩
  · intro elsewhere
    cases outcome : prepared with
    | error error =>
        intro file present
        simp only [run, overSources_of_unready outcome memory events]
        rfl
    | ok task =>
        exact (whole outcome).inputs
          (isInPlace_of_asks (prepare_eq_ok_iff.mp outcome).1 elsewhere)
  · intro error unready
    simp only [run, overSources_of_unready unready memory events, and_self]
  · intro task ready sweep reached
    obtain ⟨-, finished, stopped⟩ := overSources_eq_sweep ready
      (Task.pairwise_of_apart distinct (outputApart ready)) memory events
    refine ⟨whole ready, fun finishes => ?_, fun error stops => ?_⟩
    · exact ⟨Task.length_results_sweep finishes, finished finishes⟩
    · exact ⟨stopped error stops, Task.treat_of_stops stops⟩
  · intro discovery starts input
    exact starts.withLine_eq engines memory input

/-- Four files, of which the second one does not parse. -/
def mixedFiles : List (Path × Text) :=
  [("a.f90", "module a\nend module\n"), ("b.f90", "module b"),
    ("c.f90", "module c\n  type t\n  end type\nend module"), ("d.f90", "module d\nend module")].map
    fun (path, text) => (⟨path.toList⟩, text.toList)

/-- The engine fails within the third of the four files, behind an answer that was written into
the tree of the file.  The first one is documented, and the others are as they were. -/
theorem leaves_mixedFiles_whole :
    let engines : Engines (List (Except Failure Text)) := fun _ => .ok Engine.prepared
    let line : CommandLine := { paths := mixedFiles.map fun (path, _) => path.text }
    let sources := mixedFiles.map fun (path, _) => SourceFile.mk path path
    let store := FileMap.ofTexts mixedFiles
    let memory := [.ok "Docs.".toList, .ok "Docs.".toList, .error (Failure.root "no answer")]
    let run := withLine engines memory store line []
    (match run.verdict with
      | .error error => some error.toFailure.message
      | .ok _ => none) = some "failed to document c.f90" ∧
      (mixedFiles.map fun (path, _) => (run.store.read path).toOption) =
        some "module a\n! Docs.\nend module\n".toList ::
          (mixedFiles.tail.map fun (_, text) => some text) ∧
      Starts store line {} [] sources ∧
      run.store.read ⟨"b.f90".toList⟩ = store.read ⟨"b.f90".toList⟩ ∧
      run.store.read ⟨"d.f90".toList⟩ = store.read ⟨"d.f90".toList⟩ := by
  intro engines line sources store memory run
  have distinct : (sources.map fun file => store.place file.path).Nodup := by
    decide +kernel
  have starts : Starts store line {} [] sources :=
    { loads := ⟨{}, by decide +kernel, by decide +kernel⟩
      finds := ⟨[], by cbv, rfl⟩
      nonempty := by decide +kernel }
  have noOutput : line.output = none := rfl
  obtain ⟨-, -, ready, outcome, same⟩ :=
    leaves_files_whole engines {} distinct
      (fun _ directory given => absurd (given.symm.trans noOutput) (Option.some_ne_none directory))
      memory []
  let task : Task (List (Except Failure Text)) := .document Engine.prepared false none
  have isReady :=
    (ready task).mpr ⟨.document rfl rfl, fun _ below => absurd below Bool.false_ne_true⟩
  obtain ⟨whole, -⟩ := outcome task isReady
  have run_eq : run = overSources engines memory store line {} [] sources := same starts []
  rw [run_eq]
  refine ⟨by decide +kernel, by decide +kernel, starts, ?_, ?_⟩
  · apply whole.elsewhere
    decide +kernel
  · exact whole.beyond rfl 3 _ rfl (by decide +kernel)

end Run
end FortranDocs
