import FortranDocs.Path.Basic

/-!
# The command line

A command line is a list of options and paths in any order.  An option is known
by its long name behind two dashes and, most of them, by a letter behind one.
Some options take a value, which follows `=`, or the letter, or comes as the next
argument; letters of options without a value may be joined.  Behind `--` there are
only paths.

`CommandLine.parse` reads the arguments from the left and stops at the first one
that is misused or that asks for the version or for help.
-/

namespace FortranDocs

/-- An option without a value. -/
inductive Flag
  | check
  | overwrite
  | recursive
  | verbose
  | quiet
  | version
  | help
  deriving DecidableEq, Repr

/-- An option with a value. -/
inductive Parameter
  | output
  | engine
  | command
  | argument
  | dummyText
  | extension
  | settings
  deriving DecidableEq, Repr

/-- An option. -/
inductive Choice
  | bare (flag : Flag)
  | valued (parameter : Parameter)
  deriving DecidableEq, Repr

namespace Flag

/-- All flags, in the order of the help text. -/
def all : List Flag :=
  [.check, .overwrite, .recursive, .verbose, .quiet, .help, .version]

/-- The long name of a flag. -/
def name : Flag -> String
  | .check => "check"
  | .overwrite => "overwrite"
  | .recursive => "recursive"
  | .verbose => "verbose"
  | .quiet => "quiet"
  | .version => "version"
  | .help => "help"

/-- The letter of a flag. -/
def letter? : Flag -> Option Char
  | .check => none
  | .overwrite => none
  | .recursive => some 'r'
  | .verbose => some 'v'
  | .quiet => some 'q'
  | .version => some 'V'
  | .help => some 'h'

/-- What a flag does. -/
def purpose : Flag -> String
  | .check => "List undocumented constructs and exit with status 1 if there are any"
  | .overwrite => "Replace existing documentation blocks too"
  | .recursive => "Descend into subdirectories"
  | .verbose => "More log output (-v info, -vv debug, -vvv trace)"
  | .quiet => "Only log errors"
  | .version => "Print version"
  | .help => "Print help"

end Flag

namespace Parameter

/-- All parameters, in the order of the help text. -/
def all : List Parameter :=
  [.output, .engine, .command, .argument, .dummyText, .extension, .settings]

/-- The long name of a parameter. -/
def name : Parameter -> String
  | .output => "output"
  | .engine => "engine"
  | .command => "command"
  | .argument => "arg"
  | .dummyText => "dummy-text"
  | .extension => "ext"
  | .settings => "config"

/-- The letter of a parameter. -/
def letter? : Parameter -> Option Char
  | .output => some 'o'
  | .extension => some 'e'
  | _ => none

/-- What stands for the value of a parameter in the help text. -/
def placeholder : Parameter -> String
  | .output => "OUTPUT"
  | .engine => "ENGINE"
  | .command => "PROGRAM"
  | .argument => "ARG"
  | .dummyText => "DUMMY_TEXT"
  | .extension => "EXT"
  | .settings => "CONFIG"

/-- What a parameter does. -/
def purpose : Parameter -> String
  | .output => "Write results into this directory instead of rewriting files in place"
  | .engine => "Documentation engine: dummy or command"
  | .command => "Program run by the command engine. Implies --engine command"
  | .argument => "Argument passed to --command. Can be specified multiple times"
  | .dummyText => "Text written by the dummy engine"
  | .extension => "File extension scanned in directories. Can be specified multiple times"
  | .settings => "Config file (default: ./fortdoc.toml if present)"

/-- Whether the next argument is the value even if it begins with a dash. -/
def takesDashes (parameter : Parameter) : Bool :=
  parameter == .argument

/-- Whether the empty value is refused: no file has an empty path. -/
def refusesEmpty (parameter : Parameter) : Bool :=
  parameter == .output || parameter == .settings

end Parameter

namespace Choice

/-- All options. -/
def all : List Choice :=
  Parameter.all.map .valued ++ Flag.all.map .bare

/-- The long name of an option. -/
def name : Choice -> String
  | .bare flag => flag.name
  | .valued parameter => parameter.name

/-- The letter of an option. -/
def letter? : Choice -> Option Char
  | .bare flag => flag.letter?
  | .valued parameter => parameter.letter?

/-- An option as it is written, with what stands for its value. -/
def shown (choice : Choice) : String :=
  let short :=
    match choice.letter? with
    | some letter => s!"-{letter}, "
    | none => "    "
  match choice with
  | .bare flag => s!"{short}--{flag.name}"
  | .valued parameter => s!"{short}--{parameter.name} <{parameter.placeholder}>"

/-- What an option does. -/
def purpose : Choice -> String
  | .bare flag => flag.purpose
  | .valued parameter => parameter.purpose

/-- The line of an option in the help text. -/
def helpLine (choice : Choice) : String :=
  let shown := String.ofList (choice.shown.toList.rightpad 29 ' ')
  s!"  {shown} {choice.purpose}"

/-- The option with a long name. -/
def ofName? (name : Text) : Option Choice :=
  all.find? fun choice => choice.name.toList == name

/-- The option with a letter. -/
def ofLetter? (letter : Char) : Option Choice :=
  all.find? fun choice => choice.letter? == some letter

end Choice

/-- How a command line is misused. -/
inductive UsageError
  | unknown (option : Text)
  | unexpectedValue (flag : Flag)
  | missingValue (parameter : Parameter)
  | emptyValue (parameter : Parameter)
  | repeated (choice : Choice)
  | conflict (first second : Flag)
  deriving DecidableEq, Repr

namespace UsageError

/-- The wording of an error. -/
def message : UsageError -> String
  | .unknown option =>
      let shown := String.ofList option
      s!"unexpected argument '{shown}' found"
  | .unexpectedValue flag => s!"unexpected value for '--{flag.name}' found; no more were expected"
  | .missingValue parameter => s!"a value is required for '--{parameter.name}' but none was supplied"
  | .emptyValue parameter => s!"a value is required for '--{parameter.name}' but none was supplied"
  | .repeated choice => s!"the argument '--{choice.name}' cannot be used multiple times"
  | .conflict first second =>
      s!"the argument '--{first.name}' cannot be used with '--{second.name}'"

end UsageError

/-- Why a command line asks for no work. -/
inductive Stop
  | version
  | help
  | misuse (error : UsageError)
  deriving DecidableEq, Repr

/-- What a command line asks for. -/
structure CommandLine where
  /-- Files, directories and patterns to work on; standard input if there are
  none. -/
  paths : List Text := []
  /-- The directory that takes the results. -/
  output : Option Path := none
  /-- Whether undocumented constructs are only listed. -/
  check : Bool := false
  /-- The name of the engine. -/
  engine : Option Text := none
  /-- The program of the command engine. -/
  command : Option Text := none
  /-- The arguments of that program. -/
  commandArguments : List Text := []
  /-- The text of the dummy engine. -/
  dummyText : Option Text := none
  /-- Whether existing documentation is replaced. -/
  overwrite : Bool := false
  /-- The file extensions looked for in directories. -/
  extensions : List Text := []
  /-- Whether directories inside directories are searched. -/
  recursive : Bool := false
  /-- The settings file. -/
  settings : Option Path := none
  /-- How often more messages were asked for. -/
  verbosity : Nat := 0
  /-- Whether warnings are kept back. -/
  quiet : Bool := false
  deriving DecidableEq, Repr

namespace CommandLine

/-- The help text. -/
def help : String :=
  let options := "\n".intercalate (Choice.all.map Choice.helpLine)
  "Insert documentation comments into Fortran source files\n\n" ++
    "Usage: fortdoc [OPTIONS] [PATHS]...\n\n" ++
    "Arguments:\n" ++
    "  [PATHS]...  Input files, directories or glob patterns. If omitted, reads from stdin\n\n" ++
    s!"Options:\n{options}\n"

/-- Refuse an option that was given before. -/
def once (choice : Choice) (given : Bool) (line : CommandLine) : Except Stop CommandLine :=
  if given then .error (.misuse (.repeated choice)) else .ok line

/-- Take a flag. -/
def raise (line : CommandLine) (flag : Flag) : Except Stop CommandLine :=
  match flag with
  | .check => once (.bare flag) line.check { line with check := true }
  | .overwrite => once (.bare flag) line.overwrite { line with overwrite := true }
  | .recursive => once (.bare flag) line.recursive { line with recursive := true }
  | .verbose => .ok { line with verbosity := line.verbosity + 1 }
  | .quiet => once (.bare flag) line.quiet { line with quiet := true }
  | .version => .error .version
  | .help => .error .help

/-- Take a parameter with its value. -/
def assign (line : CommandLine) (parameter : Parameter) (value : Text) :
    Except Stop CommandLine :=
  if parameter.refusesEmpty && value.isEmpty then
    .error (.misuse (.emptyValue parameter))
  else
    let choice : Choice := .valued parameter
    match parameter with
    | .output => once choice line.output.isSome { line with output := some ⟨value⟩ }
    | .engine => once choice line.engine.isSome { line with engine := some value }
    | .command => once choice line.command.isSome { line with command := some value }
    | .argument => .ok { line with commandArguments := line.commandArguments ++ [value] }
    | .dummyText => once choice line.dummyText.isSome { line with dummyText := some value }
    | .extension => .ok { line with extensions := line.extensions ++ [value] }
    | .settings => once choice line.settings.isSome { line with settings := some ⟨value⟩ }

/-- Take an argument behind its two dashes.  A parameter without a value is left
waiting for one. -/
def takeName (line : CommandLine) (argument : Text) :
    Except Stop (CommandLine × Option Parameter) :=
  let name := argument.takeWhile (· != '=')
  match Choice.ofName? name, argument.dropWhile (· != '=') with
  | none, _ => .error (.misuse (.unknown ('-' :: '-' :: name)))
  | some (.bare flag), [] => (line.raise flag).map fun line => (line, none)
  | some (.bare flag), _ => .error (.misuse (.unexpectedValue flag))
  | some (.valued parameter), [] => .ok (line, some parameter)
  | some (.valued parameter), _ :: value =>
      (line.assign parameter value).map fun line => (line, none)

/-- Take the letters of an argument behind its dash.  What follows the letter of a
parameter is its value. -/
def takeLetters (line : CommandLine) : Text -> Except Stop (CommandLine × Option Parameter)
  | [] => .ok (line, none)
  | letter :: rest =>
      match Choice.ofLetter? letter with
      | none => .error (.misuse (.unknown ['-', letter]))
      | some (.bare flag) =>
          match line.raise flag with
          | .error stop => .error stop
          | .ok line => takeLetters line rest
      | some (.valued parameter) =>
          match rest with
          | [] => .ok (line, some parameter)
          | '=' :: value => (line.assign parameter value).map fun line => (line, none)
          | value => (line.assign parameter value).map fun line => (line, none)

/-- Whether an argument is an option or the end of the options. -/
def hasDash : Text -> Bool
  | '-' :: _ :: _ => true
  | _ => false

/-- Take arguments, the first of which may be the value of a waiting parameter. -/
def take (line : CommandLine) :
    (waiting : Option Parameter) -> (arguments : List Text) -> Except Stop CommandLine
  | none, [] => .ok line
  | some parameter, [] => .error (.misuse (.missingValue parameter))
  | some parameter, argument :: rest =>
      if hasDash argument && !parameter.takesDashes then
        .error (.misuse (.missingValue parameter))
      else
        match line.assign parameter argument with
        | .error stop => .error stop
        | .ok line => take line none rest
  | none, argument :: rest =>
      if argument = ['-', '-'] then
        .ok { line with paths := line.paths ++ rest }
      else
        let taken :=
          match argument with
          | '-' :: '-' :: name => line.takeName name
          | '-' :: letter :: letters => line.takeLetters (letter :: letters)
          | path => .ok ({ line with paths := line.paths ++ [path] }, none)
        match taken with
        | .error stop => .error stop
        | .ok (line, waiting) => take line waiting rest

/-- Read a command line.  It cannot ask for more messages and for fewer. -/
def parse (arguments : List Text) : Except Stop CommandLine :=
  match take {} none arguments with
  | .error stop => .error stop
  | .ok line =>
      if line.quiet && 0 < line.verbosity then
        .error (.misuse (.conflict .quiet .verbose))
      else
        .ok line

end CommandLine
end FortranDocs
