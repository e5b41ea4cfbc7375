import FortranDocs.Program.Shell.Command

/-!
# The state of a shell

A running shell has variables, positional parameters and the status of its last
command; it reads from its input and adds to its output.
-/

namespace FortranDocs
namespace Shell

/-- The state of a shell. -/
structure State where
  /-- The files that can be read. -/
  files : FileTree
  /-- The variables with their values. -/
  environment : List (Octets × Octets) := []
  /-- The names of the variables that other programs see. -/
  exported : List Octets := []
  /-- The name under which the script runs. -/
  name : Octets := "sh".toList
  /-- The positional parameters. -/
  parameters : List Octets := []
  /-- The status of the last command. -/
  status : Nat := 0
  /-- Whether the shell ends when a command fails. -/
  stopsOnFailure : Bool := false
  /-- The number of loops around the command that runs. -/
  loops : Nat := 0
  /-- The input that was not read so far. -/
  input : Octets := []
  /-- What was printed so far. -/
  output : Octets := []

/-- How the run of a command ends. -/
inductive Flow
  | next
  | exit
  | killed (signal : Nat)
  | leave (loops : Nat)
  | again (loops : Nat)
  | exhausted
  deriving DecidableEq, Repr

/-- What a shell can be asked to do. -/
inductive Job
  | command (command : Command)
  | round (untilTrue : Bool) (condition body : Command)
  | lines (tokens : List Token)
  | text (quoted : Bool) (octets : Octets)

/-- A way to do jobs. -/
abbrev Runner := Job -> State -> State × Flow

namespace State

/-- The value of a variable. -/
def lookup? (state : State) (name : Octets) : Option Octets :=
  state.environment.lookup name

/-- Give a variable a value. -/
def assign (state : State) (name value : Octets) : State :=
  { state with
    environment := (name, value) :: state.environment.filter fun (other, _) => other != name }

/-- The number of the shell among all running programs. -/
def processNumber : Octets := "100".toList

/-- The value of a parameter with a name, a number or a mark; none if it is not
set. -/
def value? (state : State) (name : Octets) : Option Octets :=
  match name with
  | ['?'] => some (Octets.ofNat state.status)
  | ['#'] => some (Octets.ofNat state.parameters.length)
  | ['$'] => some processNumber
  | ['!'] => none
  | ['-'] => some []
  | ['0'] => some state.name
  | ['@'] => if state.parameters.isEmpty then none else some (Text.joinOn ' ' state.parameters)
  | ['*'] => if state.parameters.isEmpty then none else some (Text.joinOn ' ' state.parameters)
  | _ =>
      match Octets.toNat? name with
      | some number => state.parameters[number - 1]?
      | none => state.lookup? name

/-- Print octets. -/
def print (state : State) (octets : Octets) : State :=
  { state with output := state.output ++ octets }

/-- End a command with a status. -/
def finish (state : State) (status : Nat) : State × Flow :=
  ({ state with status }, .next)

/-- The state behind a part of a script that ran in a shell of its own: only what it
read and printed and its status count. -/
def after (state inner : State) : State :=
  { state with input := inner.input, output := inner.output, status := inner.status }

end State

namespace Flow

/-- How the run of a part of a script in a shell of its own ends for the shell around
it. -/
def outside : Flow -> Flow
  | .killed signal => .killed signal
  | .exhausted => .exhausted
  | _ => .next

end Flow
end Shell
end FortranDocs
