import FortranDocs.Failure
import FortranDocs.Kind
import FortranDocs.Settings.Basic
import FortranDocs.Text.Utf8

/-!
# Documentation engines

An engine answers requests for the documentation of one construct.  It may
remember what it was asked, and it may fail.  The dummy engine answers every
request with the same text; the command engine hands the construct to a program
and takes what the program prints.
-/

namespace FortranDocs

/-- A request for documentation. -/
structure Request where
  /-- The kind of the construct. -/
  kind : Kind
  /-- The text of the construct. -/
  source : Text
  deriving DecidableEq, Repr

/-- An engine with a memory of its own. -/
structure Engine (Memory : Type) where
  /-- The name of the engine in messages. -/
  name : String
  /-- Answer a request, and keep a memory of it. -/
  answer : Request -> Memory -> Except Failure Text × Memory

/-- The call of a program. -/
structure Call where
  /-- The name or path of the program. -/
  program : Text
  /-- The arguments of the program. -/
  arguments : List Text
  /-- The variables set for the program, with their values. -/
  environment : List (String × Text)
  /-- The standard input of the program. -/
  input : List UInt8
  deriving DecidableEq, Repr

/-- Why a program could not be started. -/
inductive StartError
  | notFound
  | notPermitted
  | notADirectory
  | tooManyLinks
  deriving DecidableEq, Repr

namespace StartError

/-- The wording of an error. -/
def message : StartError -> String
  | .notFound => "No such file or directory (os error 2)"
  | .notPermitted => "Permission denied (os error 13)"
  | .notADirectory => "Not a directory (os error 20)"
  | .tooManyLinks => "Too many levels of symbolic links (os error 40)"

end StartError

/-- How a program ended. -/
inductive ExitStatus
  | code (number : Nat)
  | signal (number : Nat)
  deriving DecidableEq, Repr

namespace ExitStatus

/-- The names of the signals. -/
def signalName? : Nat -> Option String
  | 1 => some "SIGHUP"
  | 2 => some "SIGINT"
  | 3 => some "SIGQUIT"
  | 4 => some "SIGILL"
  | 5 => some "SIGTRAP"
  | 6 => some "SIGABRT"
  | 7 => some "SIGBUS"
  | 8 => some "SIGFPE"
  | 9 => some "SIGKILL"
  | 10 => some "SIGUSR1"
  | 11 => some "SIGSEGV"
  | 12 => some "SIGUSR2"
  | 13 => some "SIGPIPE"
  | 14 => some "SIGALRM"
  | 15 => some "SIGTERM"
  | _ => none

/-- The wording of an end. -/
def message : ExitStatus -> String
  | .code number => s!"exit status: {number}"
  | .signal number =>
      match signalName? number with
      | some name => s!"signal: {number} ({name})"
      | none => s!"signal: {number}"

end ExitStatus

/-- What came of the call of a program. -/
inductive CallResult
  | notStarted (error : StartError)
  | ended (status : ExitStatus) (output : List UInt8)
  deriving DecidableEq, Repr

/-- Whatever runs programs. -/
abbrev Launcher := Call -> CallResult

namespace Engine

/-- The engine that gives the same text for every construct. -/
def dummy (text : Text) : Engine Unit where
  name := "dummy"
  answer := fun _ memory => (.ok text, memory)

/-- The variable that tells a program the keyword of the construct. -/
def kindVariable : String := "FORTDOC_KIND"

/-- What a program's call comes to as an answer: its output without white space
around it, unless the program failed or did not print text. -/
def answerOfCall (program : Text) : CallResult -> Except Failure Text
  | .notStarted error =>
      let name := String.ofList program
      .error ((Failure.root error.message).within s!"failed to run {name}")
  | .ended (.code 0) output =>
      match Utf8.decode output with
      | .ok text => .ok (Text.trim text)
      | .error invalid =>
          let name := String.ofList program
          .error ((Failure.root invalid.message).within s!"{name} printed invalid UTF-8")
  | .ended status _ =>
      let name := String.ofList program
      .error (Failure.root s!"{name} exited with {status.message}")

/-- The engine that runs a program once per construct, with the construct's text
as its input. -/
def command (launch : Launcher) (program : Text) (arguments : List Text) : Engine Unit where
  name := "command"
  answer := fun request memory =>
    let call : Call :=
      { program
        arguments
        environment := [(kindVariable, request.kind.keyword.toList)]
        input := Utf8.encode request.source }
    (answerOfCall program (launch call), memory)

end Engine

/-- Why there is no engine for some settings. -/
inductive EngineError
  | unknown (name : Text)
  | noProgram
  deriving DecidableEq, Repr

namespace EngineError

/-- The wording of an error. -/
def message : EngineError -> String
  | .unknown name =>
      let shown := String.ofList name
      s!"unknown engine: {shown}. Use dummy or command"
  | .noProgram => "the command engine needs a program: set `command` or pass --command"

/-- The error as a failure without causes. -/
def toFailure (error : EngineError) : Failure :=
  Failure.root error.message

end EngineError

/-- Which engine some settings ask for. -/
abbrev Engines (Memory : Type) := Settings -> Except EngineError (Engine Memory)

namespace Engine

/-- The dummy engine or the command engine, by its name in the settings. -/
def ofSettings (launch : Launcher) : Engines Unit := fun settings =>
  if settings.engine = "dummy".toList then
    .ok (dummy settings.dummyText)
  else if settings.engine = "command".toList then
    match settings.command with
    | [] => .error .noProgram
    | program :: arguments => .ok (command launch program arguments)
  else
    .error (.unknown settings.engine)

end Engine
end FortranDocs
