import FortranDocs.Program.Shell.Token

/-!
# Commands of shell scripts

A script is read one line at a time: the commands of a line are run before the next
line is looked at.  `Command.line` reads the commands of a line, which may go on
over several lines if a compound command does.
-/

namespace FortranDocs
namespace Shell

/-- A redirection of an input or output. -/
structure Redirection where
  /-- The number of the input or output; that of the operator if there is none. -/
  number : Option Nat
  /-- The operator. -/
  operator : Octets
  /-- What the operator is applied to. -/
  target : Word
  deriving DecidableEq, Repr

/-- A command. -/
inductive Command
  | nothing
  | simple (assignments : List (Octets × Word)) (words : List Word)
  | redirected (redirections : List Redirection) (body : Command)
  | piped (left right : Command)
  | negated (body : Command)
  | both (left right : Command)
  | either (left right : Command)
  | sequence (left right : Command)
  | subshell (body : Command)
  | conditional (condition yes no : Command)
  | loop (untilTrue : Bool) (condition body : Command)
  | each (name : Octets) (words : Option (List Word)) (body : Command)
  | arm (subject : Word) (patterns : List Word) (body others : Command)
  deriving DecidableEq, Repr

/-- A reader of a part of a script; none on a syntax error. -/
abbrev Reader (Result : Type) := List Token -> Option (Result × List Token)

namespace Command

/-- The octets of a word in which nothing is quoted or replaced. -/
def bareText? (word : Word) : Option Octets :=
  let bare? (part : Part) : Option Octets :=
    match part with
    | .plain octets false => some octets
    | _ => none
  (word.mapM bare?).map List.flatten

/-- Read what a reader reads, if that is any command at all. -/
def readFilled (read : Reader Command) : Reader Command := fun tokens =>
  match read tokens with
  | some (.nothing, _) => none
  | other => other

/-- The words with a meaning of their own at the start of a command. -/
def reservedWords : List String :=
  ["!", "\x7b", "\x7d", "if", "then", "else", "elif", "fi", "while", "until", "for", "do", "done",
    "case", "in", "esac"]

/-- The words at which a list of commands ends. -/
def closingWords : List String :=
  ["\x7d", "then", "else", "elif", "fi", "do", "done", "esac"]

/-- The reserved word that a token is. -/
def reserved? (token : Token) : Option String :=
  match token with
  | .word word =>
      match bareText? word with
      | some octets => reservedWords.find? fun reserved => reserved.toList == octets
      | none => none
  | _ => none

/-- Whether a token is an operator. -/
def isOperator (operator : String) (token : Token) : Bool :=
  match token with
  | .operator octets => octets == operator.toList
  | _ => false

/-- Leave out line ends. -/
def skipLines (tokens : List Token) : List Token :=
  tokens.dropWhile (isOperator "\n")

/-- Take a reserved word. -/
def expect (word : String) (tokens : List Token) : Option (List Token) :=
  match tokens with
  | token :: rest => if reserved? token = some word then some rest else none
  | [] => none

/-- Take an operator. -/
def expectOperator (operator : String) (tokens : List Token) : Option (List Token) :=
  match tokens with
  | token :: rest => if isOperator operator token then some rest else none
  | [] => none

/-- The name and the value of a word that is an assignment. -/
def assignment? (word : Word) : Option (Octets × Word) :=
  let isNamePart (part : Part) : Bool :=
    match part with
    | .plain octets false => octets.all isInName
    | _ => false
  let front := word.takeWhile isNamePart
  match bareText? front, word.drop front.length with
  | some name, .plain ['='] false :: value => if isName name then some (name, value) else none
  | _, _ => none

/-- What a simple command is made of. -/
structure Simple where
  /-- The assignments in front. -/
  assignments : List (Octets × Word) := []
  /-- The words. -/
  words : List Word := []
  /-- The redirections. -/
  redirections : List Redirection := []

/-- Read redirections. -/
def readRedirections (redirections : List Redirection) : Reader (List Redirection)
  | .redirection number operator :: .word target :: rest =>
      readRedirections (redirections ++ [{ number, operator, target }]) rest
  | .redirection _ _ :: _ => none
  | tokens => some (redirections, tokens)

/-- Read the parts of a simple command. -/
def readSimple (read : Simple) : Reader Simple
  | .word word :: rest =>
      match read.words, assignment? word with
      | [], some assignment =>
          readSimple { read with assignments := read.assignments ++ [assignment] } rest
      | _, _ => readSimple { read with words := read.words ++ [word] } rest
  | .redirection number operator :: .word target :: rest =>
      readSimple { read with
        redirections := read.redirections ++ [{ number, operator, target }] } rest
  | .redirection _ _ :: _ => none
  | tokens => some (read, tokens)

/-- A command with redirections, if there are any. -/
def withRedirections (redirections : List Redirection) (body : Command) : Command :=
  if redirections.isEmpty then body else .redirected redirections body

/-- Read the words up to the end of a line. -/
def readWords (words : List Word) : Reader (List Word)
  | .word word :: rest => readWords (words ++ [word]) rest
  | tokens => some (words, tokens)

/-- Read the patterns of an arm, with the parenthesis behind them. -/
def readPatterns (patterns : List Word) : Reader (List Word)
  | .word word :: .operator ['|'] :: rest => readPatterns (patterns ++ [word]) rest
  | .word word :: .operator [')'] :: rest => some (patterns ++ [word], rest)
  | _ => none

/-- Read the arms of a choice, given a reader of lists of commands. -/
def readArms (readList : Reader Command) (subject : Word) : (fuel : Nat) -> Reader Command
  | 0, _ => none
  | fuel + 1, tokens =>
      match expect "esac" (skipLines tokens) with
      | some rest => some (.nothing, rest)
      | none =>
          let tokens := skipLines tokens
          let tokens := (expectOperator "(" tokens).getD tokens
          match readPatterns [] tokens with
          | none => none
          | some (patterns, tokens) =>
              match readList tokens with
              | none => none
              | some (body, tokens) =>
                  let tokens := skipLines tokens
                  match expectOperator ";;" tokens, expect "esac" tokens with
                  | some rest, _ =>
                      (readArms readList subject fuel rest).map fun (others, rest) =>
                        (.arm subject patterns body others, rest)
                  | none, some rest => some (.arm subject patterns body .nothing, rest)
                  | none, none => none

/-- Read the rest of a conditional behind its first word, given a reader of lists of
commands. -/
def readConditional (readList : Reader Command) : (fuel : Nat) -> Reader Command
  | 0, _ => none
  | fuel + 1, tokens => do
      let (condition, tokens) ← readFilled readList tokens
      let tokens ← expect "then" tokens
      let (yes, tokens) ← readFilled readList tokens
      match expect "fi" tokens, expect "else" tokens, expect "elif" tokens with
      | some tokens, _, _ => some (.conditional condition yes .nothing, tokens)
      | none, some tokens, _ =>
          let (no, tokens) ← readFilled readList tokens
          let tokens ← expect "fi" tokens
          some (.conditional condition yes no, tokens)
      | none, none, some tokens =>
          let (no, tokens) ← readConditional readList fuel tokens
          some (.conditional condition yes no, tokens)
      | none, none, none => none

/-- Read the body of a loop, given a reader of lists of commands. -/
def readBody (readList : Reader Command) : Reader Command := fun tokens => do
  let tokens ← expect "do" (skipLines tokens)
  let (body, tokens) ← readFilled readList tokens
  let tokens ← expect "done" tokens
  some (body, tokens)

/-- Read the rest of a loop over words. -/
def readEach (readList : Reader Command) : Reader Command := fun tokens =>
  match tokens with
  | .word word :: rest => do
      let name ← bareText? word
      if !isName name then
        none
      else
        match expect "in" (skipLines rest) with
        | some rest =>
            let (words, rest) ← readWords [] rest
            let rest := (expectOperator ";" rest).getD rest
            let (body, rest) ← readBody readList rest
            some (.each name (some words) body, rest)
        | none =>
            let rest := (expectOperator ";" rest).getD rest
            let (body, rest) ← readBody readList rest
            some (.each name none body, rest)
  | _ => none

/-- Read a command that begins with a reserved word or a parenthesis; nothing if the
next token is neither. -/
def readCompound (readList : Reader Command) (tokens : List Token) :
    Option (Option (Command × List Token)) :=
  match tokens with
  | [] => none
  | token :: rest =>
      if isOperator "(" token then
        some do
          let (body, rest) ← readFilled readList rest
          let rest ← expectOperator ")" rest
          some (.subshell body, rest)
      else
        match reserved? token with
        | some "\x7b" =>
            some do
              let (body, rest) ← readFilled readList rest
              let rest ← expect "\x7d" rest
              some (body, rest)
        | some "if" => some (readConditional readList rest.length rest)
        | some "while" =>
            some do
              let (condition, rest) ← readFilled readList rest
              let (body, rest) ← readBody readList rest
              some (.loop false condition body, rest)
        | some "until" =>
            some do
              let (condition, rest) ← readFilled readList rest
              let (body, rest) ← readBody readList rest
              some (.loop true condition body, rest)
        | some "for" => some (readEach readList rest)
        | some "case" =>
            some do
              match rest with
              | .word subject :: rest =>
                  let rest ← expect "in" (skipLines rest)
                  readArms readList subject rest.length rest
              | _ => none
        | some "in" => none
        | some "!" => none
        | some _ => some none
        | none => none

/-- Read a command without pipes. -/
def readCommand (readList : Reader Command) : Reader Command := fun tokens =>
  match readCompound readList tokens with
  | some none => none
  | some (some (body, tokens)) =>
      (readRedirections [] tokens).map fun (redirections, tokens) =>
        (withRedirections redirections body, tokens)
  | none =>
      match readSimple {} tokens with
      | none => none
      | some (read, rest) =>
          if read.assignments.isEmpty && read.words.isEmpty && read.redirections.isEmpty then
            none
          else
            some (withRedirections read.redirections
              (.simple read.assignments read.words), rest)

/-- Read the commands behind pipes. -/
def readPipes (readList : Reader Command) (left : Command) : (fuel : Nat) -> Reader Command
  | 0, _ => none
  | fuel + 1, tokens =>
      match expectOperator "|" tokens with
      | none => some (left, tokens)
      | some tokens =>
          match readCommand readList (skipLines tokens) with
          | none => none
          | some (right, tokens) => readPipes readList (.piped left right) fuel tokens

/-- Read commands joined by pipes, which may be negated. -/
def readPipeline (readList : Reader Command) : Reader Command := fun tokens =>
  match expect "!" tokens with
  | some tokens => do
      let (first, tokens) ← readCommand readList tokens
      let (body, tokens) ← readPipes readList first (tokens.length + 1) tokens
      some (.negated body, tokens)
  | none => do
      let (first, tokens) ← readCommand readList tokens
      readPipes readList first (tokens.length + 1) tokens

/-- Read the pipelines that hang on the success or failure of others. -/
def readBranches (readList : Reader Command) (left : Command) : (fuel : Nat) -> Reader Command
  | 0, _ => none
  | fuel + 1, tokens =>
      match expectOperator "&&" tokens, expectOperator "||" tokens with
      | some tokens, _ =>
          match readPipeline readList (skipLines tokens) with
          | none => none
          | some (right, tokens) => readBranches readList (.both left right) fuel tokens
      | none, some tokens =>
          match readPipeline readList (skipLines tokens) with
          | none => none
          | some (right, tokens) => readBranches readList (.either left right) fuel tokens
      | none, none => some (left, tokens)

/-- Read pipelines that hang together. -/
def readBranch (readList : Reader Command) : Reader Command := fun tokens => do
  let (first, tokens) ← readPipeline readList tokens
  readBranches readList first (tokens.length + 1) tokens

/-- Whether a list of commands ends in front of some tokens. -/
def endsList (tokens : List Token) : Bool :=
  match tokens with
  | [] => true
  | token :: _ =>
      isOperator ")" token || isOperator ";;" token ||
        match reserved? token with
        | some word => closingWords.contains word
        | none => false

/-- Take the separator behind a command. -/
def separator? (tokens : List Token) : Option (List Token) :=
  match expectOperator ";" tokens with
  | some rest => some rest
  | none => expectOperator "&" tokens

/-- Read a list of commands that goes on over lines, up to a token that ends it. -/
def readList : (fuel : Nat) -> Reader Command
  | 0, _ => none
  | fuel + 1, tokens =>
      let tokens := skipLines tokens
      if endsList tokens then
        some (.nothing, tokens)
      else
        match readBranch (readList fuel) tokens with
        | none => none
        | some (first, tokens) =>
            let following :=
              match separator? tokens with
              | some rest => some rest
              | none => expectOperator "\n" tokens
            match following with
            | none => some (first, tokens)
            | some tokens =>
                (readList fuel tokens).map fun (rest, tokens) => (.sequence first rest, tokens)

/-- Read the commands of a line. -/
def readLine : (fuel : Nat) -> Reader Command
  | 0, _ => none
  | fuel + 1, tokens =>
      match tokens with
      | [] => some (.nothing, [])
      | token :: rest =>
          if isOperator "\n" token then
            some (.nothing, rest)
          else
            match readBranch (readList (tokens.length + 1)) tokens with
            | none => none
            | some (first, tokens) =>
                match separator? tokens, tokens with
                | some rest, _ =>
                    (readLine fuel rest).map fun (others, rest) => (.sequence first others, rest)
                | none, [] => some (first, [])
                | none, token :: rest => if isOperator "\n" token then some (first, rest) else none

/-- Read the commands of the next line of a script. -/
def line : Reader Command := fun tokens =>
  readLine (tokens.length + 1) tokens

end Command
end Shell
end FortranDocs
