import FortranDocs.Documentation
import FortranDocs.Split
import FortranDocs.Path.Basic

/-!
# Events

What a run reports about its progress.  `Event.line` is the line in which an event
is logged; which lines appear depends on how many messages the run may give.
-/

namespace FortranDocs

/-- What happens in a run. -/
inductive Event
  | unmatched (pattern : Text)
  | unparsed (path : Path) (error : ParseError)
  | unanswered (line : Nat) (kind : Kind)
  | documentedInput (report : Report)
  | documentedFile (path : Path) (report : Report)
  deriving DecidableEq, Repr

/-- How much an event matters. -/
inductive Level
  | warning
  | information
  deriving DecidableEq, Repr

namespace Level

/-- The name of a level in a log line. -/
def name : Level -> String
  | .warning => "WARN"
  | .information => "INFO"

/-- Whether events of a level are logged in a run that was asked to be quiet, or
that was asked some number of times for more messages. -/
def isLogged (quiet : Bool) (verbosity : Nat) : Level -> Bool
  | .warning => !quiet
  | .information => !quiet && 0 < verbosity

end Level

namespace Event

/-- How much an event matters. -/
def level : Event -> Level
  | .unmatched _ => .warning
  | .unparsed _ _ => .warning
  | .unanswered _ _ => .warning
  | .documentedInput _ => .information
  | .documentedFile _ _ => .information

/-- The wording of an event. -/
def message : Event -> String
  | .unmatched pattern =>
      let shown := String.ofList pattern
      s!"no files matched: {shown}"
  | .unparsed path error => s!"skipping {path.display}: {error.message}"
  | .unanswered line kind =>
      s!"engine returned no documentation line={line} kind={kind.keyword}"
  | .documentedInput report =>
      s!"processed stdin documented={report.documented} skipped={report.skipped}"
  | .documentedFile path report =>
      s!"processed path={path.display} documented={report.documented} skipped={report.skipped}"

/-- The line in which an event is logged. -/
def line (event : Event) : String :=
  s!"{event.level.name} {event.message}"

/-- The events of a pass: the constructs that the engine had nothing to say
about. -/
def ofPass {Memory : Type} (pass : Pass Memory) : List Event :=
  pass.blanks.map fun (line, kind) => .unanswered line kind

end Event
end FortranDocs
