import FortranDocs.Settings.Basic
import FortranDocs.Settings.Token

/-!
# Settings files as documents

A settings file lists names with their values, one to a line.  A value is a
string, a truth value or a list of strings; a list may run over several lines and
may end with a comma.  Every name is one of the settings and occurs once.
-/

namespace FortranDocs
namespace Settings

/-- A value in a settings file. -/
inductive Value
  | text (text : Text)
  | flag (flag : Bool)
  | texts (texts : List Text)
  deriving DecidableEq, Repr

/-- What the reader of a settings file is in the middle of. -/
inductive ReadMode
  /-- At the start of a line. -/
  | lineStart
  /-- Behind a name. -/
  | named (name : Text)
  /-- Behind a name and the sign that gives it a value. -/
  | assigned (name : Text)
  /-- In a list, of which the next item may follow or a comma has to come first. -/
  | listing (name : Text) (items : List Text) (itemMayFollow : Bool)
  /-- Behind a value. -/
  | valued
  deriving DecidableEq, Repr

/-- The state of the reader. -/
structure Read where
  /-- The names and values read so far. -/
  assignments : List (Text × Value) := []
  /-- What the reader is in the middle of. -/
  mode : ReadMode := .lineStart
  deriving DecidableEq, Repr

namespace Read

/-- Change over to another mode. -/
def turn (read : Read) (mode : ReadMode) : Read :=
  { read with mode }

/-- Give a name its value. -/
def assign (read : Read) (name : Text) (value : Value) : Read :=
  { assignments := read.assignments ++ [(name, value)], mode := .valued }

/-- Read one token. -/
def step (read : Read) (token : Token) : Option Read :=
  match read.mode, token with
  | .lineStart, .lineEnd => some read
  | .lineStart, .word name => some (read.turn (.named name))
  | .lineStart, .quoted name false => some (read.turn (.named name))
  | .named name, .equals => some (read.turn (.assigned name))
  | .assigned name, .word word =>
      if word = "true".toList then some (read.assign name (.flag true))
      else if word = "false".toList then some (read.assign name (.flag false))
      else none
  | .assigned name, .quoted text _ => some (read.assign name (.text text))
  | .assigned name, .opening => some (read.turn (.listing name [] true))
  | .listing _ _ _, .lineEnd => some read
  | .listing name items true, .quoted item _ =>
      some (read.turn (.listing name (items ++ [item]) false))
  | .listing name items false, .comma => some (read.turn (.listing name items true))
  | .listing name items _, .closing => some (read.assign name (.texts items))
  | .valued, .lineEnd => some (read.turn .lineStart)
  | _, _ => none

/-- The assignments of a file that ends here. -/
def finish (read : Read) : Option (List (Text × Value)) :=
  match read.mode with
  | .lineStart | .valued => some read.assignments
  | _ => none

end Read

/-- Change one setting; none if there is no setting of that name and value. -/
def assign (settings : Settings) (name : Text) (value : Value) : Option Settings :=
  match String.ofList name, value with
  | "extensions", .texts extensions => some { settings with extensions }
  | "engine", .text engine => some { settings with engine }
  | "overwrite", .flag overwrite => some { settings with overwrite }
  | "dummy_text", .text dummyText => some { settings with dummyText }
  | "command", .texts command => some { settings with command }
  | _, _ => none

/-- The settings that assignments make of the usual ones; none if a name is
repeated. -/
def ofAssignments? (assignments : List (Text × Value)) : Option Settings :=
  if (assignments.map Prod.fst).Nodup then
    assignments.foldlM (fun settings (name, value) => assign settings name value) {}
  else
    none

/-- The settings that a file holds; none if it is malformed.  A byte order mark in
front does not count. -/
def ofText? (text : Text) : Option Settings :=
  let text := if text.head? = some '\uFEFF' then text.drop 1 else text
  ((Token.ofText? text).bind fun tokens =>
    (tokens.foldlM Read.step {}).bind Read.finish).bind ofAssignments?

end Settings
end FortranDocs
