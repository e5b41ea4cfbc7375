import FortranDocs.Program.Octets

/-!
# Tokens of shell scripts

A shell script is a sequence of words, operators and redirections.  A word is made
of parts: octets that stand for themselves, values of variables, and the output of
other scripts.  What is quoted is not split into fields later.
-/

namespace FortranDocs
namespace Shell

/-- What is done with the value of a variable. -/
inductive Change
  | none
  | length
  | default (ifEmpty : Bool) (word : Octets)
  | assign (ifEmpty : Bool) (word : Octets)
  | alternative (ifEmpty : Bool) (word : Octets)
  | demand (ifEmpty : Bool)
  | trimEnd (longest : Bool) (pattern : Octets)
  | trimStart (longest : Bool) (pattern : Octets)
  deriving DecidableEq, Repr

/-- A part of a word. -/
inductive Part
  | plain (octets : Octets) (quoted : Bool)
  | value (name : Octets) (change : Change) (quoted : Bool)
  | output (script : Octets) (quoted : Bool)
  | sum (expression : Octets) (quoted : Bool)
  deriving DecidableEq, Repr

/-- A word. -/
abbrev Word := List Part

/-- A token. -/
inductive Token
  | word (word : Word)
  | operator (octets : Octets)
  | redirection (number : Option Nat) (operator : Octets)
  | fault
  deriving DecidableEq, Repr

/-- Whether an octet ends a word that is not quoted. -/
def endsWord (octet : Char) : Bool :=
  octet ∈ [' ', '\t', '\n', ';', '&', '|', '<', '>', '(', ')']

/-- Whether an octet can begin a name. -/
def beginsName (octet : Char) : Bool :=
  octet.isAlpha || octet == '_'

/-- Whether an octet can stand in a name. -/
def isInName (octet : Char) : Bool :=
  octet.isAlphanum || octet == '_'

/-- Whether octets are a name. -/
def isName (octets : Octets) : Bool :=
  octets.head?.any beginsName && octets.all isInName

/-- Cut octets at the bracket that closes one opened in front of them.  Brackets in
quotes and behind backslashes do not count. -/
def enclosed (opening closing : Char) (depth : Nat) (quote : Option Char) (escaped : Bool) :
    Octets -> Option (Octets × Octets)
  | [] => none
  | octet :: rest =>
      let keep (depth : Nat) (quote : Option Char) (escaped : Bool) :
          Option (Octets × Octets) :=
        (enclosed opening closing depth quote escaped rest).map fun (inside, rest) =>
          (octet :: inside, rest)
      if escaped then
        keep depth quote false
      else if octet = '\\' ∧ quote ≠ some '\'' then
        keep depth quote true
      else
        match quote with
        | some mark => keep depth (if octet = mark then none else quote) false
        | none =>
            if octet = '\'' ∨ octet = '"' then
              keep depth (some octet) false
            else if octet = closing then
              if depth = 0 then some ([], rest) else keep (depth - 1) none false
            else if octet = opening then
              keep (depth + 1) none false
            else
              keep depth none false

/-- Cut octets at the backquote that ends a script, whose own backslashes in front of
special octets are left out. -/
def backquoted (quoted : Bool) : Octets -> Option (Octets × Octets)
  | [] => none
  | ['\\'] => none
  | '\\' :: octet :: rest =>
      (backquoted quoted rest).map fun (inside, rest) =>
        if octet ∈ ['$', '\x60', '\\'] ∨ (quoted ∧ octet = '"') then
          (octet :: inside, rest)
        else
          ('\\' :: octet :: inside, rest)
  | octet :: rest =>
      if octet = '\x60' then
        some ([], rest)
      else
        (backquoted quoted rest).map fun (inside, rest) => (octet :: inside, rest)

/-- What the text behind a variable's name in braces asks for. -/
def changeOf (text : Octets) : Option Change :=
  let (ifEmpty, text) :=
    match text with
    | ':' :: rest => (true, rest)
    | _ => (false, text)
  match ifEmpty, text with
  | false, [] => some .none
  | _, '-' :: word => some (.default ifEmpty word)
  | _, '=' :: word => some (.assign ifEmpty word)
  | _, '+' :: word => some (.alternative ifEmpty word)
  | _, '?' :: _ => some (.demand ifEmpty)
  | false, '%' :: '%' :: pattern => some (.trimEnd true pattern)
  | false, '%' :: pattern => some (.trimEnd false pattern)
  | false, '#' :: '#' :: pattern => some (.trimStart true pattern)
  | false, '#' :: pattern => some (.trimStart false pattern)
  | _, _ => none

/-- The name in front of a text: an identifier, a number or a single mark. -/
def nameBefore (text : Octets) : Octets :=
  match text with
  | [] => []
  | first :: _ =>
      if beginsName first then text.takeWhile isInName
      else if first.isDigit then text.takeWhile Char.isDigit
      else if first ∈ ['@', '*', '#', '?', '$', '!', '-'] then [first]
      else []

/-- The variable that the inside of braces describes. -/
def bracedVariable (quoted : Bool) (inside : Octets) : Option Part :=
  let whole (inside : Octets) : Option Part :=
    let name := nameBefore inside
    if name.isEmpty then
      none
    else
      (changeOf (inside.drop name.length)).map fun change => .value name change quoted
  match inside with
  | '#' :: first :: rest =>
      let name := nameBefore (first :: rest)
      if name.length = rest.length + 1 then some (.value name .length quoted)
      else whole inside
  | _ => whole inside

/-- The expansion behind a dollar sign. -/
def expansion (quoted : Bool) (text : Octets) : Option (Part × Octets) :=
  match text with
  | '(' :: '(' :: rest =>
      match enclosed '(' ')' 1 none false rest with
      | some (inside, rest) => some (.sum inside.dropLast quoted, rest)
      | none => none
  | '(' :: rest =>
      (enclosed '(' ')' 0 none false rest).map fun (script, rest) => (.output script quoted, rest)
  | '{' :: rest =>
      (enclosed '{' '}' 0 none false rest).bind fun (inside, rest) =>
        (bracedVariable quoted inside).map fun part => (part, rest)
  | _ =>
      let name :=
        match text with
        | first :: _ => if first.isDigit then [first] else nameBefore text
        | [] => []
      if name.isEmpty then
        some (.plain ['$'] quoted, text)
      else
        some (.value name .none quoted, text.drop name.length)

/-- The parts of a word, up to its end or to the closing double quote, at most as
many as the fuel allows. -/
def parts (quoted : Bool) : (fuel : Nat) -> Octets -> Option (Word × Octets)
  | 0, _ => none
  | _ + 1, [] => if quoted then none else some ([], [])
  | fuel + 1, octet :: rest =>
      let before (part : Part) (rest : Octets) : Option (Word × Octets) :=
        (parts quoted fuel rest).map fun (word, rest) => (part :: word, rest)
      if octet = '$' then
        (expansion quoted rest).bind fun (part, rest) => before part rest
      else if octet = '\x60' then
        (backquoted quoted rest).bind fun (script, rest) => before (.output script quoted) rest
      else if quoted then
        if octet = '"' then
          some ([], rest)
        else if octet = '\\' then
          match rest with
          | '\n' :: rest => parts quoted fuel rest
          | next :: rest =>
              if next ∈ ['$', '\x60', '"', '\\'] then
                before (.plain [next] true) rest
              else
                before (.plain ['\\', next] true) rest
          | [] => none
        else
          before (.plain [octet] true) rest
      else if endsWord octet then
        some ([], octet :: rest)
      else if octet = '\\' then
        match rest with
        | '\n' :: rest => parts quoted fuel rest
        | next :: rest => before (.plain [next] true) rest
        | [] => before (.plain ['\\'] true) []
      else if octet = '\'' then
        let inside := rest.takeWhile (· != '\'')
        match rest.drop inside.length with
        | _ :: rest => before (.plain inside true) rest
        | [] => none
      else if octet = '"' then
        (parts true fuel rest).bind fun (inside, rest) =>
          (parts quoted fuel rest).map fun (word, rest) =>
            (.plain [] true :: inside ++ word, rest)
      else
        before (.plain [octet] false) rest

/-- The operators of a script, longer ones in front of their beginnings. -/
def operators : List Octets :=
  ["&&", "||", ";;", ";", "&", "|", "(", ")", "\n"].map String.toList

/-- The operators of a redirection, longer ones in front of their beginnings. -/
def redirections : List Octets :=
  [">>", ">&", ">|", "<&", "<>", ">", "<"].map String.toList

/-- The first of some operators that a text begins with. -/
def operatorBefore? (choices : List Octets) (text : Octets) : Option Octets :=
  choices.find? fun choice => choice.isPrefixOf text

/-- The tokens of a script, at most as many as the fuel allows.  A word that does
not end is a fault. -/
def tokens : (fuel : Nat) -> Octets -> List Token
  | 0, _ => []
  | _ + 1, [] => []
  | fuel + 1, octet :: rest =>
      let text := octet :: rest
      if octet = ' ' ∨ octet = '\t' then
        tokens fuel rest
      else if octet = '\\' ∧ rest.head? = some '\n' then
        tokens fuel (rest.drop 1)
      else if octet = '#' then
        tokens fuel (rest.dropWhile (· != '\n'))
      else
        let digits := text.takeWhile Char.isDigit
        match operatorBefore? operators text, operatorBefore? redirections (text.drop digits.length) with
        | some operator, _ => .operator operator :: tokens fuel (text.drop operator.length)
        | none, some operator =>
            .redirection (Octets.toNat? digits) operator ::
              tokens fuel (text.drop (digits.length + operator.length))
        | none, none =>
            match parts false (text.length + 1) text with
            | some (word, rest) => .word word :: tokens fuel rest
            | none => [.fault]

/-- The tokens of a script. -/
def tokensOf (script : Octets) : List Token :=
  tokens (script.length + 1) script

end Shell
end FortranDocs
