import FortranDocs.Program.Shell.Expand
import FortranDocs.Program.Utility

/-!
# Running shell scripts

`Shell.perform` does one job, given a way to do smaller ones; `Shell.run` does jobs
that do not nest deeper than its fuel allows.
-/

namespace FortranDocs
namespace Shell

/-- The way of a loop on after one of its rounds: whether it goes on, and how the
loop ends if it does not. -/
def afterRound : Flow -> Option Flow
  | .next => none
  | .again 0 => none
  | .again (loops + 1) => some (.again loops)
  | .leave 0 => some .next
  | .leave (loops + 1) => some (.leave loops)
  | flow => some flow

/-- Run a command as a round of a loop: whether the loop goes on comes from
`afterRound`. -/
def runBody (run : Runner) (body : Command) (state : State) : State × Option Flow :=
  match run (.command body) { state with loops := state.loops + 1 } with
  | (inner, flow) => ({ inner with loops := state.loops }, afterRound flow)

/-- Do a job whose failure does not end the shell. -/
def asCondition (run : Runner) (job : Job) (state : State) : State × Flow :=
  match run job { state with stopsOnFailure := false } with
  | (inner, flow) => ({ inner with stopsOnFailure := state.stopsOnFailure }, flow)

/-- End the shell if a command failed and that is to end it. -/
def checked (result : State × Flow) : State × Flow :=
  match result with
  | (state, .next) =>
      if state.stopsOnFailure && state.status != 0 then (state, .exit) else (state, .next)
  | other => other

/-- Do a job in a shell of its own. -/
def inOwnShell (run : Runner) (job : Job) (state : State) : State × Flow :=
  match run job state with
  | (inner, flow) => (state.after inner, flow.outside)

/-- Join words with spaces. -/
def spaced (words : List Octets) : Octets :=
  Text.joinOn ' ' words

/-- What a script's options come to. -/
structure Invocation where
  /-- The script, unless it is in a file or the input. -/
  takesScript : Bool := false
  /-- Whether the script is the input. -/
  takesInput : Bool := false
  /-- Whether the shell ends when a command fails. -/
  stopsOnFailure : Bool := false

/-- Read the options of a shell; none if one is not known. -/
def Invocation.ofArguments? (invocation : Invocation) :
    List Octets -> Option (Invocation × List Octets)
  | [] => some (invocation, [])
  | argument :: rest =>
      match argument with
      | ['-', '-'] => some (invocation, rest)
      | ['-'] => some (invocation, rest)
      | '-' :: letters =>
          if letters.all fun letter => letter ∈ ['c', 'e', 's', 'u', 'x', 'v', 'f', 'n'] then
            ofArguments? {
              takesScript := invocation.takesScript || letters.contains 'c'
              takesInput := invocation.takesInput || letters.contains 's'
              stopsOnFailure := invocation.stopsOnFailure || letters.contains 'e' } rest
          else
            none
      | _ => some (invocation, argument :: rest)

/-- Run a shell with some arguments: on the script behind `-c`, on a file, or on its
input. -/
def invoke (run : Runner) (arguments : List Octets) (state : State) : State × Flow :=
  match ({} : Invocation).ofArguments? arguments with
  | none => ({ state with status := 2 }, .next)
  | some (invocation, operands) =>
      let state := { state with stopsOnFailure := invocation.stopsOnFailure }
      if invocation.takesScript then
        match operands with
        | [] => ({ state with status := 2 }, .next)
        | script :: operands =>
            run (.lines (tokensOf script)) { state with
              name := operands.head?.getD state.name
              parameters := operands.drop 1 }
      else
        match operands with
        | path :: parameters =>
            if invocation.takesInput then
              run (.lines (tokensOf state.input)) { state with input := [], parameters := operands }
            else
              match state.files.read ⟨Octets.toText path⟩ with
              | .ok content =>
                  run (.lines (tokensOf (Octets.ofBytes content)))
                    { state with name := path, parameters }
              | .error _ => ({ state with status := 2 }, .next)
        | [] => run (.lines (tokensOf state.input)) { state with input := [], parameters := [] }

/-- Run a shell inside a shell. -/
def invokeInside (run : Runner) (name : Octets) (arguments : List Octets) (state : State) :
    State × Flow :=
  let seen := state.environment.filter fun (each, _) => state.exported.contains each
  match invoke run arguments { state with environment := seen, name, parameters := [], loops := 0 } with
  | (inner, .killed signal) => ({ state.after inner with status := 128 + signal }, .next)
  | (inner, .exhausted) => (state.after inner, .exhausted)
  | (inner, _) => (state.after inner, .next)

/-- Run a utility. -/
def useUtility (utility : Utility) (arguments : List Octets) (state : State) : State × Flow :=
  let effect := utility state.files arguments state.input
  { state.print effect.output with input := effect.rest }.finish effect.code

/-- The number of a signal with a name. -/
def signalNamed? (name : Octets) : Option Nat :=
  let bare := if "SIG".toList.isPrefixOf name then name.drop 3 else name
  match Octets.toNat? name with
  | some number => some number
  | none =>
      (List.range 16).find? fun number =>
        match ExitStatus.signalName? number with
        | some known => known.toList == "SIG".toList ++ bare
        | none => false

/-- Send a signal. -/
def kill (arguments : List Octets) (state : State) : State × Flow :=
  let (signal, targets) :=
    match arguments with
    | ['-', 's'] :: name :: rest => (signalNamed? name, rest)
    | ('-' :: name) :: rest => (signalNamed? name, rest)
    | rest => (some 15, rest)
  match signal with
  | none => state.finish 2
  | some signal =>
      if targets.isEmpty then
        state.finish 2
      else if targets.contains State.processNumber ∨ targets.contains ['0'] then
        if signal = 0 then state.finish 0 else (state, .killed signal)
      else
        state.finish 1

/-- Read a line of the input into variables.  The last one takes what the others
leave. -/
def readLine (arguments : List Octets) (state : State) : State × Flow :=
  let names := if arguments.head? = some "-r".toList then arguments.drop 1 else arguments
  let line := state.input.takeWhile (· != '\n')
  let rest := state.input.drop line.length
  let isOff (octet : Char) : Bool := octet == ' ' || octet == '\t'
  let trimmed (octets : Octets) : Octets :=
    ((octets.dropWhile isOff).reverse.dropWhile isOff).reverse
  let assigned := names.foldl (fun (state, line, left) name =>
    match left with
    | 0 => (State.assign state name (trimmed line), [], 0)
    | left + 1 =>
        let line := line.dropWhile isOff
        let word := line.takeWhile fun octet => !isOff octet
        (State.assign state name word, line.drop word.length, left))
    (state, line, names.length - 1)
  { assigned.1 with input := rest.drop 1 }.finish (if rest.isEmpty then 1 else 0)

/-- The exit status that an argument spells. -/
def statusOf (state : State) (arguments : List Octets) : Nat :=
  match arguments with
  | [] => state.status
  | argument :: _ =>
      match Octets.toNat? argument with
      | some number => number % 256
      | none => 2

/-- The number that the first argument spells, or else one. -/
def countOf (arguments : List Octets) : Nat :=
  (arguments.head?.bind Octets.toNat?).getD 1

/-- End rounds of loops.  Outside of loops that does nothing. -/
def endRounds (flow : Nat -> Flow) (arguments : List Octets) (state : State) : State × Flow :=
  let count := min (countOf arguments) state.loops
  if count = 0 then state.finish 0 else ({ state with status := 0 }, flow (count - 1))

/-- Export variables, which may be given values. -/
def exportAll (arguments : List Octets) (state : State) : State :=
  arguments.foldl (fun state argument =>
    let name := argument.takeWhile (· != '=')
    let state := { state with exported := name :: state.exported }
    match argument.drop name.length with
    | [] => state
    | _ :: value => state.assign name value) state

/-- Change the settings or the parameters of the shell. -/
def set (arguments : List Octets) (state : State) : State :=
  match arguments with
  | ['-', '-'] :: parameters => { state with parameters }
  | ['-', 'e'] :: _ => { state with stopsOnFailure := true }
  | ['+', 'e'] :: _ => { state with stopsOnFailure := false }
  | ('-' :: letters) :: _ =>
      { state with stopsOnFailure := state.stopsOnFailure || letters.contains 'e' }
  | ('+' :: _) :: _ => state
  | [] => state
  | parameters => { state with parameters }

/-- Run a command that is not one of the shell's own. -/
def runProgram (run : Runner) (name : Octets) (arguments : List Octets) (state : State) :
    State × Flow :=
  let known := if name.contains '/' then Utility.nameAt? name else some name
  match known with
  | some known =>
      if Utility.isShell known then
        invokeInside run name arguments state
      else
        match Utility.named? known with
        | some utility => useUtility utility arguments state
        | none => state.finish 127
  | none =>
      state.finish (if state.files.hasEntry ⟨Octets.toText name⟩ then 126 else 127)

/-- Run a command with a name. -/
def runNamed (run : Runner) (name : Octets) (arguments : List Octets) (state : State) :
    State × Flow :=
  match String.ofList name with
  | "exit" => ({ state with status := statusOf state arguments }, .exit)
  | "return" => ({ state with status := statusOf state arguments }, .exit)
  | "break" => endRounds Flow.leave arguments state
  | "continue" => endRounds Flow.again arguments state
  | "shift" =>
      let count := countOf arguments
      if state.parameters.length < count then
        ({ state with status := 2 }, .exit)
      else
        { state with parameters := state.parameters.drop count }.finish 0
  | "set" => (set arguments state).finish 0
  | "export" => (exportAll arguments state).finish 0
  | "unset" =>
      { state with
        environment := state.environment.filter fun (other, _) => !arguments.contains other }.finish 0
  | "read" => readLine arguments state
  | "kill" => kill arguments state
  | "cd" => state.finish 0
  | "umask" => state.finish 0
  | "wait" => state.finish 0
  | "trap" => state.finish 0
  | "eval" => run (.lines (tokensOf (spaced arguments))) { state with status := 0 }
  | _ =>
      match Utility.ofShell? name with
      | some utility => useUtility utility arguments state
      | none => runProgram run name arguments state

/-- Give variables the values of words. -/
def assignAll (run : Runner) (assignments : List (Octets × Word)) (state : State) :
    State × Flow :=
  assignments.foldl (fun (state, flow) (name, word) =>
    if flow ≠ .next then
      (state, flow)
    else
      match WordExpansion.ofWord run state word with
      | (value, state, flow) => (state.assign name value, flow)) (state, .next)

/-- Whether a word holds a script that prints a part of it. -/
def holdsScript (word : Word) : Bool :=
  word.any fun part =>
    match part with
    | .output _ _ => true
    | _ => false

/-- Run a simple command.  Assignments in front of a command hold for it alone. -/
def runSimple
    (run : Runner)
    (assignments : List (Octets × Word))
    (words : List Word)
    (state : State) :
    State × Flow :=
  let expansion := WordExpansion.ofWords run state words
  if expansion.flow ≠ .next then
    (expansion.state, expansion.flow)
  else
    let substituted := expansion.state
    match expansion.fields.toList with
    | [] =>
        let runsScript := (words ++ assignments.map Prod.snd).any holdsScript
        match assignAll run assignments substituted with
        | (state, .next) => if runsScript then (state, .next) else state.finish 0
        | other => other
    | name :: arguments =>
        match assignAll run assignments { substituted with status := state.status } with
        | (assigned, .next) =>
            let assigned :=
              { assigned with exported := assignments.map Prod.fst ++ assigned.exported }
            let isFinal := name == "exec".toList
            let result :=
              if isFinal || name == "command".toList then
                match arguments with
                | inner :: arguments => runNamed run inner arguments assigned
                | [] => assigned.finish 0
              else
                runNamed run name arguments assigned
            let restore (inner : State) : State :=
              if assignments.isEmpty then
                inner
              else
                { inner with environment := state.environment, exported := state.exported }
            match (result : State × Flow) with
            | (inner, flow) =>
                let ends := isFinal && !arguments.isEmpty && flow == .next
                (restore inner, if ends then .exit else flow)
        | other => other

/-- What redirections make of the input and the output of a command. -/
structure Redirected where
  /-- The state of the shell. -/
  state : State
  /-- The input, if it comes from elsewhere. -/
  input : Option Octets := none
  /-- Whether the output goes elsewhere. -/
  isDropped : Bool := false
  /-- How the command goes on. -/
  flow : Flow := .next

/-- Follow a redirection. -/
def Redirected.follow (run : Runner) (redirected : Redirected) (redirection : Redirection) :
    Redirected :=
  if redirected.flow ≠ .next then
    redirected
  else
    match WordExpansion.ofWord run redirected.state redirection.target with
    | (target, state, flow) =>
        let redirected := { redirected with state, flow }
        match redirection.operator with
        | '<' :: '&' :: _ => redirected
        | '<' :: _ =>
            match Filter.readOperand state.files target [] with
            | (some content, _) =>
                if target = ['-'] then redirected else { redirected with input := some content }
            | (none, _) =>
                { redirected with state := { state with status := 2 }, flow := .leave 0 }
        | operator =>
            if redirection.number.getD 1 = 1 then
              { redirected with
                isDropped := !(operator = ">&".toList ∧ target = ['1']) }
            else
              redirected

/-- Run a command with redirections.  What goes elsewhere is not kept. -/
def runRedirected
    (run : Runner)
    (redirections : List Redirection)
    (body : Command)
    (state : State) :
    State × Flow :=
  let redirected := redirections.foldl (Redirected.follow run) { state }
  match redirected.flow with
  | .leave _ => (redirected.state, .next)
  | .next =>
      let before := redirected.state
      match run (.command body) { before with input := redirected.input.getD before.input } with
      | (inner, flow) =>
          ({ inner with
            input := if redirected.input.isSome then before.input else inner.input
            output := if redirected.isDropped then before.output else inner.output }, flow)
  | flow => (redirected.state, flow)

/-- Run two commands of which the second one reads what the first one prints. -/
def runPiped (run : Runner) (left right : Command) (state : State) : State × Flow :=
  match inOwnShell run (.command left) { state with output := [] } with
  | (first, .next) =>
      match inOwnShell run (.command right) { state with input := first.output } with
      | (second, flow) => ({ second with input := first.input }, flow)
  | (first, flow) => ({ first with output := state.output }, flow)

/-- Run a command once for each of some words. -/
def runEach (run : Runner) (name : Octets) (body : Command) :
    List Octets -> State -> State × Flow
  | [], state => (state, .next)
  | word :: rest, state =>
      match runBody run body (state.assign name word) with
      | (state, some flow) => (state, flow)
      | (state, none) => runEach run name body rest state

/-- Run the rounds of a loop.  The status is that of the last round. -/
def runRound
    (run : Runner)
    (untilTrue : Bool)
    (condition body : Command)
    (state : State) :
    State × Flow :=
  match asCondition run (.command condition) state with
  | (inner, .next) =>
      if (inner.status == 0) == untilTrue then
        ({ inner with status := state.status }, .next)
      else
        match runBody run body inner with
        | (state, some flow) => (state, flow)
        | (state, none) => run (.round untilTrue condition body) state
  | (state, flow) => (state, (afterRound flow).getD flow)

/-- Find out whether one of some patterns describes octets. -/
def anyDescribes (run : Runner) (subject : Octets) : List Word -> State -> Bool × State × Flow
  | [], state => (false, state, .next)
  | word :: rest, state =>
      match WordExpansion.patternOfWord run state word with
      | (pattern, state, .next) =>
          if Wildcard.describes pattern subject then (true, state, .next)
          else anyDescribes run subject rest state
      | (_, state, flow) => (false, state, flow)

/-- Run a command, given a way to do the jobs that it consists of. -/
def runCommand (run : Runner) (command : Command) (state : State) : State × Flow :=
  match command with
  | .nothing => state.finish 0
  | .simple assignments words => checked (runSimple run assignments words state)
  | .redirected redirections body => runRedirected run redirections body state
  | .piped left right => checked (runPiped run left right state)
  | .negated body =>
      match asCondition run (.command body) state with
      | (state, .next) => state.finish (if state.status = 0 then 1 else 0)
      | other => other
  | .both left right =>
      match asCondition run (.command left) state with
      | (state, .next) =>
          if state.status = 0 then run (.command right) state else (state, .next)
      | other => other
  | .either left right =>
      match asCondition run (.command left) state with
      | (state, .next) =>
          if state.status = 0 then (state, .next) else run (.command right) state
      | other => other
  | .sequence left right =>
      match run (.command left) state with
      | (state, .next) =>
          match right with
          | .nothing => (state, .next)
          | right => run (.command right) state
      | other => other
  | .subshell body => checked (inOwnShell run (.command body) state)
  | .conditional condition yes no =>
      match asCondition run (.command condition) state with
      | (state, .next) =>
          if state.status = 0 then run (.command yes) state else run (.command no) state
      | other => other
  | .loop untilTrue condition body =>
      run (.round untilTrue condition body) { state with status := 0 }
  | .each name words body =>
      match words with
      | none => runEach run name body state.parameters { state with status := 0 }
      | some words =>
          let expansion := WordExpansion.ofWords run state words
          if expansion.flow ≠ .next then
            (expansion.state, expansion.flow)
          else
            runEach run name body expansion.fields.toList { expansion.state with status := 0 }
  | .arm subject patterns body others =>
      match WordExpansion.ofWord run state subject with
      | (value, state, .next) =>
          match anyDescribes run value patterns state with
          | (true, state, .next) => run (.command body) state
          | (false, state, .next) => run (.command others) state
          | (_, state, flow) => (state, flow)
      | (_, state, flow) => (state, flow)

/-- Do a job, given a way to do the jobs that it consists of. -/
def perform (run : Runner) (job : Job) (state : State) : State × Flow :=
  match job with
  | .command command => runCommand run command state
  | .round untilTrue condition body => runRound run untilTrue condition body state
  | .text quoted octets =>
      match parts quoted (octets.length + 2) (if quoted then octets ++ ['"'] else octets) with
      | none => ({ state with status := 2 }, .exit)
      | some (word, _) =>
          match WordExpansion.ofWord run state word with
          | (value, state, flow) => (state.print value, flow)
  | .lines [] => (state, .next)
  | .lines tokens =>
      match Command.line tokens with
      | none => ({ state with status := 2 }, .exit)
      | some (.nothing, rest) => run (.lines rest) state
      | some (command, rest) =>
          match run (.command command) state with
          | (state, .next) => run (.lines rest) state
          | other => other

/-- Do a job that does not nest deeper than the fuel allows. -/
def run : (fuel : Nat) -> Runner
  | 0 => fun _ state => (state, .exhausted)
  | fuel + 1 => perform (run fuel)

/-- How deep a script may nest its commands, rounds of loops included. -/
def depthLimit : Nat := 10000

/-- Run a shell as a program.  A script that nests too deep is killed. -/
def program
    (files : FileTree)
    (name : Octets)
    (arguments : List Octets)
    (environment : List (Octets × Octets))
    (input : Octets) :
    ExitStatus × Octets :=
  let state : State := { files, name, environment, exported := environment.map Prod.fst, input }
  match invoke (run depthLimit) arguments state with
  | (state, .killed signal) => (.signal signal, state.output)
  | (state, .exhausted) => (.signal 9, state.output)
  | (state, _) => (.code state.status, state.output)

end Shell
end FortranDocs
