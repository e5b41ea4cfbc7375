import FortranDocs.Text.Basic

/-!
# Tokens of a settings file

A settings file is a sequence of words, quoted strings, signs and line ends.  A
string stands in apostrophes, and then holds what it shows, or in quotation
marks, and then may hold escape sequences; three delimiters in place of one let a
string run over several lines.

The scanner is a machine that reads one character at a time, so that scanning a
text is a fold over its characters.
-/

namespace FortranDocs
namespace Settings

/-- A token of a settings file. -/
inductive Token
  | word (word : Text)
  | quoted (content : Text) (multiline : Bool)
  | equals
  | comma
  | opening
  | closing
  | lineEnd
  deriving DecidableEq, Repr

/-- A string whose end has not been read yet. -/
structure OpenString where
  /-- The delimiter, an apostrophe or a quotation mark. -/
  delimiter : Char
  /-- Whether three delimiters end the string. -/
  multiline : Bool
  /-- The content read so far. -/
  content : Text := []
  deriving DecidableEq, Repr

namespace OpenString

/-- Lengthen the content. -/
def add (string : OpenString) (more : Text) : OpenString :=
  { string with content := string.content ++ more }

/-- The token that a string becomes at its end. -/
def token (string : OpenString) : Token :=
  .quoted string.content string.multiline

end OpenString

/-- What the scanner is in the middle of. -/
inductive ScanMode
  /-- Between tokens. -/
  | between
  /-- In a word. -/
  | inWord (word : Text)
  /-- In a comment. -/
  | inComment
  /-- Behind a carriage return that a line feed has to follow. -/
  | behindReturn
  /-- Behind one or two delimiters that may become three. -/
  | opened (delimiter : Char) (two : Bool)
  /-- At the start of a string of several lines, whose first line end does not
  count. -/
  | fresh (string : OpenString)
  /-- Behind a carriage return there. -/
  | freshReturn (string : OpenString)
  /-- In a string. -/
  | inside (string : OpenString)
  /-- Behind a carriage return in a string of several lines. -/
  | insideReturn (string : OpenString)
  /-- Behind delimiters in a string of several lines. -/
  | ending (string : OpenString) (count : Nat)
  /-- Behind a backslash. -/
  | escaped (string : OpenString)
  /-- In the digits of an escape sequence. -/
  | digits (string : OpenString) (left value : Nat)
  /-- In the white space behind a backslash, which does not count if it holds a
  line end. -/
  | folding (string : OpenString) (lineEnded : Bool)
  /-- Behind a carriage return there. -/
  | foldingReturn (string : OpenString)
  deriving DecidableEq, Repr

/-- The state of the scanner. -/
structure Scan where
  /-- The tokens read so far. -/
  tokens : List Token := []
  /-- What the scanner is in the middle of. -/
  mode : ScanMode := .between
  deriving DecidableEq, Repr

namespace Scan

/-- A character that a word may hold. -/
def isWordPart (character : Char) : Bool :=
  character.isAlphanum || character == '_' || character == '-'

/-- A control character; the tab is none. -/
def isControl (character : Char) : Bool :=
  (character.toNat < 0x20 && character != '\t') || character.toNat == 0x7F

/-- The value of a hexadecimal digit. -/
def digitValue? (character : Char) : Option Nat :=
  if character.isDigit then some (character.toNat - '0'.toNat)
  else if 'a' ≤ character && character ≤ 'f' then some (character.toNat - 'a'.toNat + 10)
  else if 'A' ≤ character && character ≤ 'F' then some (character.toNat - 'A'.toNat + 10)
  else none

/-- The character with a given code point, if there is one. -/
def characterOf? (code : Nat) : Option Char :=
  if code.isValidChar then some (Char.ofNat code) else none

/-- Change over to another mode. -/
def turn (scan : Scan) (mode : ScanMode) : Scan :=
  { scan with mode }

/-- Add a token and stand between tokens. -/
def emit (scan : Scan) (token : Token) : Scan :=
  { tokens := scan.tokens ++ [token], mode := .between }

/-- Read a character between tokens. -/
def stepBetween (scan : Scan) (character : Char) : Option Scan :=
  match character with
  | ' ' | '\t' => some (scan.turn .between)
  | '\n' => some (scan.emit .lineEnd)
  | '\r' => some (scan.turn .behindReturn)
  | '#' => some (scan.turn .inComment)
  | '=' => some (scan.emit .equals)
  | ',' => some (scan.emit .comma)
  | '[' => some (scan.emit .opening)
  | ']' => some (scan.emit .closing)
  | '"' | '\'' => some (scan.turn (.opened character false))
  | _ => if isWordPart character then some (scan.turn (.inWord [character])) else none

/-- Read a character in a string. -/
def stepInside (scan : Scan) (string : OpenString) (character : Char) : Option Scan :=
  if character = string.delimiter then
    if string.multiline then
      some (scan.turn (.ending string 1))
    else
      some (scan.emit string.token)
  else if character = '\\' ∧ string.delimiter = '"' then
    some (scan.turn (.escaped string))
  else if character = '\n' then
    if string.multiline then some (scan.turn (.inside (string.add ['\n']))) else none
  else if character = '\r' then
    if string.multiline then some (scan.turn (.insideReturn string)) else none
  else if isControl character then
    none
  else
    some (scan.turn (.inside (string.add [character])))

/-- Read a character behind a backslash. -/
def stepEscaped (scan : Scan) (string : OpenString) (character : Char) : Option Scan :=
  let put (written : Char) := some (scan.turn (.inside (string.add [written])))
  match character with
  | 'b' => put '\x08'
  | 't' => put '\t'
  | 'n' => put '\n'
  | 'f' => put '\x0C'
  | 'r' => put '\r'
  | 'e' => put '\x1B'
  | '"' => put '"'
  | '\\' => put '\\'
  | 'x' => some (scan.turn (.digits string 2 0))
  | 'u' => some (scan.turn (.digits string 4 0))
  | 'U' => some (scan.turn (.digits string 8 0))
  | ' ' | '\t' => if string.multiline then some (scan.turn (.folding string false)) else none
  | '\n' => if string.multiline then some (scan.turn (.folding string true)) else none
  | '\r' => if string.multiline then some (scan.turn (.foldingReturn string)) else none
  | _ => none

/-- Read one character. -/
def step (scan : Scan) (character : Char) : Option Scan :=
  match scan.mode with
  | .between => scan.stepBetween character
  | .inWord word =>
      if isWordPart character then
        some (scan.turn (.inWord (word ++ [character])))
      else
        (scan.emit (.word word)).stepBetween character
  | .inComment =>
      if character = '\n' then some (scan.emit .lineEnd)
      else if character = '\r' then some (scan.turn .behindReturn)
      else if isControl character then none
      else some scan
  | .behindReturn => if character = '\n' then some (scan.emit .lineEnd) else none
  | .opened delimiter false =>
      if character = delimiter then
        some (scan.turn (.opened delimiter true))
      else
        scan.stepInside { delimiter, multiline := false } character
  | .opened delimiter true =>
      if character = delimiter then
        some (scan.turn (.fresh { delimiter, multiline := true }))
      else
        (scan.emit (.quoted [] false)).stepBetween character
  | .fresh string =>
      if character = '\n' then some (scan.turn (.inside string))
      else if character = '\r' then some (scan.turn (.freshReturn string))
      else scan.stepInside string character
  | .freshReturn string =>
      if character = '\n' then some (scan.turn (.inside string)) else none
  | .inside string => scan.stepInside string character
  | .insideReturn string =>
      if character = '\n' then
        some (scan.turn (.inside (string.add ['\r', '\n'])))
      else
        none
  | .ending string count =>
      if character = string.delimiter then
        if count = 4 then
          some (scan.emit (string.add (List.replicate 2 string.delimiter)).token)
        else
          some (scan.turn (.ending string (count + 1)))
      else if 3 ≤ count then
        let string := string.add (List.replicate (count - 3) string.delimiter)
        (scan.emit string.token).stepBetween character
      else
        scan.stepInside (string.add (List.replicate count string.delimiter)) character
  | .escaped string => scan.stepEscaped string character
  | .digits string left value =>
      match digitValue? character with
      | none => none
      | some digit =>
          let value := value * 16 + digit
          if 1 < left then
            some (scan.turn (.digits string (left - 1) value))
          else
            (characterOf? value).map fun written =>
              scan.turn (.inside (string.add [written]))
  | .folding string lineEnded =>
      if character = ' ' ∨ character = '\t' then some scan
      else if character = '\n' then some (scan.turn (.folding string true))
      else if character = '\r' then some (scan.turn (.foldingReturn string))
      else if lineEnded then scan.stepInside string character
      else none
  | .foldingReturn string =>
      if character = '\n' then some (scan.turn (.folding string true)) else none

/-- The tokens of a text that ends here. -/
def finish (scan : Scan) : Option (List Token) :=
  match scan.mode with
  | .between | .inComment => some scan.tokens
  | .inWord word => some (scan.tokens ++ [.word word])
  | .opened _ true => some (scan.tokens ++ [.quoted [] false])
  | .ending string count =>
      if 3 ≤ count then
        let string := string.add (List.replicate (count - 3) string.delimiter)
        some (scan.tokens ++ [string.token])
      else
        none
  | _ => none

end Scan

/-- The tokens of a settings file; none if it is malformed. -/
def Token.ofText? (text : Text) : Option (List Token) :=
  (text.foldlM Scan.step {}).bind Scan.finish

end Settings
end FortranDocs
