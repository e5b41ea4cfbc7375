import FortranDocs.Text.Basic

/-!
# Settings

What a run can be told by its settings file or its command line.
-/

namespace FortranDocs

/-- The settings of a run. -/
structure Settings where
  /-- The file extensions looked for in directories, without their dots. -/
  extensions : List Text := ["f90", "f95", "f03", "f08", "f"].map String.toList
  /-- The name of the engine that writes documentation. -/
  engine : Text := "dummy".toList
  /-- Whether existing documentation is replaced. -/
  overwrite : Bool := false
  /-- The text that the dummy engine writes. -/
  dummyText : Text := "This is a dummy document.".toList
  /-- The program that the command engine runs, and its arguments. -/
  command : List Text := []
  deriving DecidableEq, Repr

end FortranDocs
