import FortranDocs.Documentation
import FortranDocs.Inputs
import FortranDocs.Settings.File
import FortranDocs.Split

/-!
# Errors of a run

A run ends early when its settings, its inputs or its engine are not to be had,
when a file cannot be read or written, or when the engine fails.
-/

namespace FortranDocs

/-- Why a run fails. -/
inductive RunError
  | settings (error : SettingsError)
  | inputNotText
  | inputUnparsed (error : ParseError)
  | inputUndocumented (failure : EngineFailure)
  | engine (error : EngineError)
  | inputs (error : InputError)
  | noInputs
  | clash (clash : Clash)
  | outputDirectory (path : Path) (error : AccessError)
  | unreadable (path : Path) (error : ReadError)
  | undocumented (path : Path) (failure : EngineFailure)
  | directory (path : Path) (error : AccessError)
  | unwritable (path : Path) (error : AccessError)
  | unparsed (failed total : Nat)
  deriving DecidableEq, Repr

namespace RunError

/-- The error as a failure with its causes. -/
def toFailure : RunError -> Failure
  | .settings error => error.toFailure
  | .inputNotText => (Failure.root ReadError.noText.message).within "failed to read stdin"
  | .inputUnparsed error => (Failure.root error.message).within "failed to parse stdin"
  | .inputUndocumented failure => failure.toFailure
  | .engine error => error.toFailure
  | .inputs error => error.toFailure
  | .noInputs => Failure.root "no input files found"
  | .clash pair => Failure.root pair.message
  | .outputDirectory path error =>
      (Failure.root error.message).within s!"failed to create output directory: {path.display}"
  | .unreadable path error =>
      (Failure.root error.message).within s!"failed to read {path.display}"
  | .undocumented path failure =>
      failure.toFailure.within s!"failed to document {path.display}"
  | .directory path error =>
      (Failure.root error.message).within s!"failed to create {path.display}"
  | .unwritable path error =>
      (Failure.root error.message).within s!"failed to write {path.display}"
  | .unparsed failed total =>
      Failure.root s!"{failed} of {total} files could not be parsed"

end RunError
end FortranDocs
