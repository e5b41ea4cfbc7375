import FortranDocs.Proofs.Inputs.Listing
import FortranDocs.Proofs.Run.FileMap
import FortranDocs.Run.Outcome

/-!
# The way to the task of a run

What a run over files does with them is settled before the first one is read: by its command line
and its settings, `Run.Asks`, and by whether two inputs have the same place below an output
directory.  `Run.prepare_eq_ok_iff` states that nothing else keeps a run over a map of files from
its task.
-/

namespace FortranDocs
namespace Run

/-- The task that a command line and some settings ask for. -/
inductive Asks
    {Memory : Type}
    (engines : Engines Memory)
    (line : CommandLine)
    (settings : Settings) : Task Memory -> Prop
  /-- The undocumented constructs are only listed. -/
  | list (checks : line.check = true) : Asks engines line settings .list
  /-- The engine of the settings documents the files. -/
  | document {engine : Engine Memory}
      (works : line.check = false)
      (available : engines settings = .ok engine) :
      Asks engines line settings (.document engine settings.overwrite line.output)

/-- The inputs of a run with some command line, and what happens until they are found. -/
structure Starts
    {Store : Type}
    [Storage Store]
    [Discovery Store]
    (store : Store)
    (line : CommandLine)
    (settings : Settings)
    (events : List Event)
    (sources : List SourceFile) : Prop where
  /-- The settings are those of the settings file, as the command line changes them. -/
  loads : ∃ loaded, Settings.load store line.settings = .ok loaded ∧ settings = loaded.refine line
  /-- The inputs are the files that the arguments lead to. -/
  finds :
    ∃ unmatched,
      Expansion.ofArguments store settings.extensions line.recursive line.paths =
        { unmatched, files := .ok sources } ∧
      events = unmatched.map Event.unmatched
  /-- There are inputs. -/
  nonempty : sources ≠ []

section

variable
  {Store Memory : Type}
  [Storage Store]
  {engines : Engines Memory}
  {store prepared : Store}
  {line : CommandLine}
  {settings : Settings}
  {events : List Event}
  {sources : List SourceFile}

/-- A run that finds inputs is a run over them. -/
theorem Starts.withLine_eq
    [Discovery Store]
    (starts : Starts store line settings events sources)
    (engines : Engines Memory)
    (memory : Memory)
    (input : List UInt8) :
    withLine engines memory store line input =
      overSources engines memory store line settings events sources := by
  obtain ⟨loaded, loads, rfl⟩ := starts.loads
  obtain ⟨unmatched, found, rfl⟩ := starts.finds
  have asked : line.paths.isEmpty = false := by
    rw [Bool.eq_false_iff]
    intro nothing
    rw [List.isEmpty_iff.mp nothing] at found
    have listed : SourceFile.listing [] = sources :=
      Except.ok.inj (congrArg Expansion.files found)
    rw [SourceFile.listing, List.mergeSort_nil] at listed
    exact starts.nonempty listed.symm
  obtain ⟨first, rest, rfl⟩ := List.exists_cons_of_ne_nil starts.nonempty
  simp only [withLine, loads, asked, Bool.false_eq_true, if_false, overFiles, found]

/-- A run that gets to work does the task that its command line and its settings ask for. -/
theorem asks_of_prepare
    {task : Task Memory}
    (ready : prepare engines store line settings sources = (prepared, .ok task)) :
    Asks engines line settings task := by
  unfold prepare at ready
  split at ready
  · next checks =>
      cases ready
      exact .list checks
  · next works =>
      dsimp only at ready
      split at ready
      · cases ready
      · split at ready
        · cases ready
        · next engine available =>
            cases ready
            exact .document (Bool.eq_false_iff.mpr works) available

end

variable
  {Memory Place : Type}
  [DecidableEq Place]
  {engines : Engines Memory}
  {store : FileMap Place}
  {line : CommandLine}
  {settings : Settings}
  {sources : List SourceFile}

/-- In a map of files there is always room for an output directory. -/
theorem prepareOutput_eq (store : FileMap Place) (sources : List SourceFile) (directory : Path) :
    prepareOutput store sources directory =
      (store, (Clash.find? sources).map RunError.clash) := by
  unfold prepareOutput
  cases Clash.find? sources <;> rfl

/-- Getting ready changes nothing in a map of files. -/
theorem fst_prepare
    (engines : Engines Memory)
    (store : FileMap Place)
    (line : CommandLine)
    (settings : Settings)
    (sources : List SourceFile) :
    (prepare engines store line settings sources).1 = store := by
  unfold prepare
  split
  · rfl
  · cases line.output with
    | none => cases engines settings <;> rfl
    | some directory =>
        simp only [prepareOutput_eq]
        cases Clash.find? sources with
        | some clash => rfl
        | none => cases engines settings <;> rfl

theorem prepare_eq
    {outcome : Except RunError (Task Memory)}
    (ready : (prepare engines store line settings sources).2 = outcome) :
    prepare engines store line settings sources = (store, outcome) :=
  Prod.ext (fst_prepare engines store line settings sources) ready

/-- A run that does not come to its task changes nothing. -/
theorem overSources_of_unready
    {error : RunError}
    (unready : (prepare engines store line settings sources).2 = .error error)
    (memory : Memory)
    (events : List Event) :
    overSources engines memory store line settings events sources =
      { events, verdict := .error error, store } := by
  simp only [overSources, prepare_eq unready]

/-- A run that comes to its task ends where the steps over its files end. -/
theorem overSources_of_ready
    {task : Task Memory}
    {memory : Memory}
    {events : List Event}
    {after : Progress (FileMap Place) Memory}
    {error : Option RunError}
    (ready : (prepare engines store line settings sources).2 = .ok task)
    (ran :
      FileStep.throughAll task.step sources { store, memory, events } = (after, error)) :
    overSources engines memory store line settings events sources =
      { output := after.output
        events := after.events
        verdict := error.elim (.ok (found after.output)) .error
        store := after.store } := by
  simp only [overSources, prepare_eq ready, ran]
  cases error <;> rfl

/-- Over a map of files a run does the task that it is asked for, unless two inputs have the same
place below its output directory. -/
theorem prepare_eq_ok_iff {task : Task Memory} :
    (prepare engines store line settings sources).2 = .ok task ↔
      Asks engines line settings task ∧
        (line.check = false → line.output.isSome = true → Clash.find? sources = none) := by
  constructor
  · intro ready
    refine ⟨asks_of_prepare (Prod.ext rfl ready), fun works below => ?_⟩
    obtain ⟨directory, output⟩ := Option.isSome_iff_exists.mp below
    simp only [prepare, works, output, prepareOutput_eq, Bool.false_eq_true, if_false] at ready
    cases clash : Clash.find? sources with
    | none => rfl
    | some clash =>
        rw [clash] at ready
        exact nomatch ready
  · rintro ⟨asked, apart⟩
    cases asked with
    | list checks => simp only [prepare, checks, if_true]
    | document works available =>
        cases output : line.output with
        | none => simp only [prepare, works, output, available, Bool.false_eq_true, if_false]
        | some directory =>
            have noClash := apart works (by simp [output])
            simp only [prepare, works, output, prepareOutput_eq, noClash, available,
              Option.map_none, Bool.false_eq_true, if_false]

end Run
end FortranDocs
