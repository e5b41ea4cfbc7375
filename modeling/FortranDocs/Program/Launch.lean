import FortranDocs.Program.Shell.Run

/-!
# Starting programs

What starts programs is a parameter of the command engine.  `Program.launch` is one
launcher, for runs that have no system around them: it knows a shell and some of the
programs that every system has, and the other modules here say what these do.

A program is named or is at a path.  A name is looked for among the known programs,
a path among them and in the files of the run, none of which can be started.
-/

namespace FortranDocs
namespace Program

/-- Directories that every system has. -/
def systemDirectories : List Text :=
  ["/", "/bin", "/dev", "/etc", "/home", "/lib", "/opt", "/proc", "/root", "/sbin", "/sys", "/tmp",
    "/usr", "/usr/bin", "/usr/lib", "/usr/local", "/usr/sbin", "/var"].map String.toList

/-- What comes of starting whatever is at a path among some files. -/
def errorAt (files : FileTree) (path : Path) : StartError :=
  let bare := (path.text.reverse.dropWhile (· == '/')).reverse
  if path.isAbsolute then
    if bare.isEmpty || systemDirectories.contains bare then .notPermitted else .notFound
  else
    match files.locate true path with
    | .error .notADirectory => .notADirectory
    | .error .tooManyLinks => .tooManyLinks
    | .error _ => .notFound
    | .ok location =>
        match files.entry? location with
        | some _ => .notPermitted
        | none => .notFound

/-- The known program that a call names. -/
def known? (program : Text) : Option Octets :=
  let octets := Octets.ofText program
  if octets.contains '/' then
    Utility.nameAt? octets
  else if (Utility.named? octets).isSome || Utility.isShell octets then
    some octets
  else
    none

/-- Call a program among some files. -/
def launch (files : FileTree) : Launcher := fun call =>
  match known? call.program with
  | some name =>
      let arguments := call.arguments.map Octets.ofText
      let input := Octets.ofBytes call.input
      if Utility.isShell name then
        let environment := call.environment.map fun (name, value) =>
          (Octets.ofText name.toList, Octets.ofText value)
        let (status, output) :=
          Shell.program files (Octets.ofText call.program) arguments environment input
        .ended status (Octets.toBytes output)
      else
        match Utility.named? name with
        | some utility =>
            let effect := utility files arguments input
            .ended (.code effect.code) (Octets.toBytes effect.output)
        | none => .notStarted .notFound
  | none =>
      if call.program.contains '/' then
        .notStarted (errorAt files ⟨call.program⟩)
      else
        .notStarted .notFound

end Program
end FortranDocs
