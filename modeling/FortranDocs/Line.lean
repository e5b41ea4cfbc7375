import FortranDocs.Text.Basic

/-!
# Classification of one source line

Everything here looks at one line at a time.  A file with two-character line
endings leaves a carriage return at the end of each line; the classifiers ignore
it, and it stays part of the line.
-/

namespace FortranDocs

/-- Where a scan of a line stands with respect to character literals. -/
inductive Quoting
  | outside
  | apostrophe
  | quotation
  deriving DecidableEq, Repr

namespace Quoting

/-- The state behind one more character.  A delimiter opens a literal outside of
literals and closes a literal of its own kind; a doubled delimiter closes and
opens again. -/
def after : Quoting -> Char -> Quoting
  | .outside, '\'' => .apostrophe
  | .outside, '"' => .quotation
  | .apostrophe, '\'' => .outside
  | .quotation, '"' => .outside
  | state, _ => state

end Quoting

namespace Line

/-- The part of a scanned text in front of the first comment marker outside of
character literals. -/
def codeFrom (state : Quoting) : Line -> Line
  | [] => []
  | character :: rest =>
      if state = .outside ∧ character = '!' then
        []
      else
        character :: codeFrom (state.after character) rest

/-- The code of a line: what stands in front of its comment. -/
def code (line : Line) : Line :=
  codeFrom .outside (Text.withoutReturn line)

/-- A line of white space only. -/
def isBlank (line : Line) : Bool :=
  Text.isBlank (Text.withoutReturn line)

/-- A line whose code ends with the marker `&` continues on the next line. -/
def isContinued (line : Line) : Bool :=
  (Text.trimEnd (code line)).getLast? == some '&'

/-- The number of spaces at the start of a line. -/
def indentWidth (line : Line) : Nat :=
  (line.takeWhile (· == ' ')).length

/-- A comment line: its first character that is not white space is the comment
marker. -/
def isComment (line : Line) : Bool :=
  (Text.trimStart (Text.withoutReturn line)).head? == some '!'

/-- A line of a documentation block: a comment line that is not blank. -/
def isDocumentation (line : Line) : Bool :=
  !line.isBlank && line.isComment

/-- The indentation of a run of lines: that of its first line that is not blank, or
zero. -/
def indentOf (lines : List Line) : Nat :=
  match lines.find? fun line => !line.isBlank with
  | some line => line.indentWidth
  | none => 0

end Line

/-- How a line of a file ends. -/
inductive LineEnding
  | lineFeed
  | returnLineFeed
  deriving DecidableEq, Repr

namespace LineEnding

/-- The ending of the lines around a given line. -/
def ofLine (line : Line) : LineEnding :=
  if line.getLast? = some '\r' then .returnLineFeed else .lineFeed

/-- The characters of an ending. -/
def text : LineEnding -> Text
  | .lineFeed => ['\n']
  | .returnLineFeed => ['\r', '\n']

/-- The part of an ending that stays on the line in front of the line feed. -/
def tail : LineEnding -> Line
  | .lineFeed => []
  | .returnLineFeed => ['\r']

end LineEnding
end FortranDocs
