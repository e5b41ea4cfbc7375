import FortranDocs.Program.Condition
import FortranDocs.Program.Filter
import FortranDocs.Program.Printing

/-!
# The programs by their names

A program without a script is found by its name.  The shell has some programs of its
own, which it takes instead.
-/

namespace FortranDocs
namespace Utility

/-- The program with a name. -/
def named? (name : Octets) : Option Utility :=
  match String.ofList name with
  | "cat" => some Filter.cat
  | "head" => some Filter.head
  | "tr" => some Filter.tr
  | "wc" => some Filter.wc
  | "echo" => some Printing.echo
  | "printf" => some Printing.printf
  | "test" => some Condition.test
  | "[" => some Condition.bracket
  | "true" => some (Condition.ended 0)
  | "false" => some (Condition.ended 1)
  | _ => none

/-- The shell's own program with a name. -/
def ofShell? (name : Octets) : Option Utility :=
  match String.ofList name with
  | "echo" => some Printing.shellEcho
  | "printf" => some Printing.shellPrintf
  | ":" => some (Condition.ended 0)
  | "test" => some Condition.test
  | "[" => some Condition.bracket
  | "true" => some (Condition.ended 0)
  | "false" => some (Condition.ended 1)
  | _ => none

/-- Whether a name is that of a shell. -/
def isShell (name : Octets) : Bool :=
  ["sh", "dash", "bash"].any fun shell => shell.toList == name

/-- The directories in which programs are. -/
def directories : List Octets :=
  ["/usr/bin/", "/bin/"].map String.toList

/-- The name of the program that a path in one of these directories leads to. -/
def nameAt? (path : Octets) : Option Octets :=
  match directories.find? fun directory => directory.isPrefixOf path with
  | some directory =>
      let name := path.drop directory.length
      if (named? name).isSome || isShell name then some name else none
  | none => none

end Utility
end FortranDocs
