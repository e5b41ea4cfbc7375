import FortranDocs.CommandLine
import FortranDocs.Run.Files
import FortranDocs.Run.Input

/-!
# Whole runs

A run is told by its command line and its settings file what to do, does it to its
standard input or to the files of a storage, and ends with an exit code.  Which engine
it works with is a function of its settings.
-/

namespace FortranDocs

/-- What a run leaves behind. -/
structure Outcome (Store : Type) where
  /-- The exit code. -/
  exitCode : Nat
  /-- What was printed. -/
  output : Text := []
  /-- The log lines. -/
  log : List String := []
  /-- How the command line was misused. -/
  misuse : Option UsageError := none
  /-- Why the run failed. -/
  failure : Option Failure := none
  /-- The storage as it is afterwards. -/
  store : Store

/-- What a part of a run came to. -/
structure Result (Store : Type) where
  /-- What was printed. -/
  output : Text := []
  /-- What happened. -/
  events : List Event := []
  /-- Why the run failed, or whether it found something to report. -/
  verdict : Except RunError Bool := .ok false
  /-- The storage as it is afterwards. -/
  store : Store

namespace Settings

/-- The settings as a command line changes them. -/
def refine (settings : Settings) (line : CommandLine) : Settings :=
  let settings :=
    match line.command with
    | some program =>
        { settings with
          command := program :: line.commandArguments
          engine := "command".toList }
    | none => settings
  { settings with
    engine := line.engine.getD settings.engine
    dummyText := line.dummyText.getD settings.dummyText
    overwrite := line.overwrite || settings.overwrite
    extensions :=
      if line.extensions.isEmpty then
        settings.extensions
      else
        line.extensions.map fun extension => extension.dropWhile (· == '.') }

end Settings

namespace Run

/-- Whether a listing found anything. -/
def found (output : Text) : Bool :=
  !output.isEmpty

/-- A run over the standard input. -/
def overInput
    {Store Memory : Type}
    (engines : Engines Memory)
    (memory : Memory)
    (store : Store)
    (line : CommandLine)
    (settings : Settings)
    (input : List UInt8) :
    Result Store :=
  match StandardInput.source input with
  | .error error => { verdict := .error error, store }
  | .ok tree =>
      if line.check then
        let output := tree.listing StandardInput.name
        { output, verdict := .ok (found output), store }
      else
        match engines settings with
        | .error error => { verdict := .error (.engine error), store }
        | .ok engine =>
            match StandardInput.document engine settings.overwrite memory tree with
            | (events, .error error) => { events, verdict := .error error, store }
            | (events, .ok output) => { events, output, store }

/-- Make the output directory of a run, after a look at the places of its
inputs. -/
def prepareOutput
    {Store : Type}
    [Storage Store]
    (store : Store)
    (sources : List SourceFile)
    (directory : Path) :
    Store × Option RunError :=
  match Clash.find? sources with
  | some clash => (store, some (.clash clash))
  | none =>
      match Storage.makeDirectories store directory with
      | (store, some error) => (store, some (.outputDirectory directory error))
      | (store, none) => (store, none)

/-- The task of a run over some files, and the storage once the run is prepared. -/
def prepare
    {Store Memory : Type}
    [Storage Store]
    (engines : Engines Memory)
    (store : Store)
    (line : CommandLine)
    (settings : Settings)
    (sources : List SourceFile) :
    Store × Except RunError (Task Memory) :=
  if line.check then
    (store, .ok .list)
  else
    let prepared :=
      match line.output with
      | none => (store, none)
      | some directory => prepareOutput store sources directory
    match prepared with
    | (store, some error) => (store, .error error)
    | (store, none) =>
        match engines settings with
        | .error error => (store, .error (.engine error))
        | .ok engine => (store, .ok (.document engine settings.overwrite line.output))

/-- A run over the files that were found. -/
def overSources
    {Store Memory : Type}
    [Storage Store]
    (engines : Engines Memory)
    (memory : Memory)
    (store : Store)
    (line : CommandLine)
    (settings : Settings)
    (events : List Event)
    (sources : List SourceFile) :
    Result Store :=
  match prepare engines store line settings sources with
  | (store, .error error) => { events, verdict := .error error, store }
  | (store, .ok task) =>
      let (progress, error) :=
        FileStep.throughAll task.step sources { store, memory, events }
      { output := progress.output
        events := progress.events
        verdict :=
          match error with
          | some error => .error error
          | none => .ok (found progress.output)
        store := progress.store }

/-- A run over files. -/
def overFiles
    {Store Memory : Type}
    [Storage Store]
    [Discovery Store]
    (engines : Engines Memory)
    (memory : Memory)
    (store : Store)
    (line : CommandLine)
    (settings : Settings) :
    Result Store :=
  let expansion :=
    Expansion.ofArguments store settings.extensions line.recursive line.paths
  let events := expansion.unmatched.map Event.unmatched
  match expansion.files with
  | .error error => { events, verdict := .error (.inputs error), store }
  | .ok [] => { events, verdict := .error .noInputs, store }
  | .ok sources => overSources engines memory store line settings events sources

/-- A run with a command line that asks for work. -/
def withLine
    {Store Memory : Type}
    [Storage Store]
    [Discovery Store]
    (engines : Engines Memory)
    (memory : Memory)
    (store : Store)
    (line : CommandLine)
    (input : List UInt8) :
    Result Store :=
  match Settings.load store line.settings with
  | .error error => { verdict := .error (.settings error), store }
  | .ok settings =>
      let settings := settings.refine line
      if line.paths.isEmpty then
        overInput engines memory store line settings input
      else
        overFiles engines memory store line settings

end Run

namespace Result

/-- What a run leaves behind that may log some levels of events. -/
def outcome {Store : Type} (result : Result Store) (isLogged : Level -> Bool) : Outcome Store :=
  { exitCode :=
      match result.verdict with
      | .ok false => 0
      | _ => 1
    output := result.output
    log := (result.events.filter fun event => isLogged event.level).map Event.line
    failure :=
      match result.verdict with
      | .ok _ => none
      | .error error => some error.toFailure
    store := result.store }

end Result

namespace Run

/-- What a run prints when it is asked for its version. -/
def version : String := "fortdoc 0.1.0\n"

/-- A run with some arguments. -/
def perform
    {Store Memory : Type}
    [Storage Store]
    [Discovery Store]
    (engines : Engines Memory)
    (memory : Memory)
    (store : Store)
    (arguments : List Text)
    (input : List UInt8) :
    Outcome Store :=
  match CommandLine.parse arguments with
  | .ok line =>
      (withLine engines memory store line input).outcome
        (Level.isLogged line.quiet line.verbosity)
  | .error .version => { exitCode := 0, output := version.toList, store }
  | .error .help => { exitCode := 0, output := CommandLine.help.toList, store }
  | .error (.misuse error) => { exitCode := 2, misuse := some error, store }

end Run
end FortranDocs
