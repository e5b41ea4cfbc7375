import FortranDocs.Settings.Document
import FortranDocs.Storage

/-!
# The settings file of a run

A run takes its settings from a file that is named for it and has to be there, or
else from the file `fortdoc.toml` of the working directory, or else from nowhere.
-/

namespace FortranDocs

/-- Why there are no settings. -/
inductive SettingsError
  | notFound (path : Path)
  | unreadable (path : Path) (error : ReadError)
  | malformed (path : Path)
  deriving DecidableEq, Repr

namespace SettingsError

/-- The wording of an error. -/
def message : SettingsError -> String
  | .notFound path => s!"config file not found: {path.display}"
  | .unreadable path error =>
      s!"failed to read config file at {path.display}: {error.message}"
  | .malformed path => s!"failed to parse config file at {path.display}"

/-- The error as a failure. -/
def toFailure (error : SettingsError) : Failure :=
  match error with
  | .unreadable _ cause => (Failure.root cause.message).within error.message
  | _ => Failure.root error.message

end SettingsError

namespace Settings

/-- The settings file that is looked for when none is named. -/
def usualFile : Path := ⟨"fortdoc.toml".toList⟩

/-- The settings in a file; none if there is no such file. -/
def read
    {Store : Type}
    [Storage Store]
    (store : Store)
    (path : Path) :
    Except SettingsError (Option Settings) :=
  if !Storage.isPresent store path then
    .ok none
  else
    match Storage.readText store path with
    | .error error => .error (.unreadable path error)
    | .ok text =>
        match ofText? text with
        | none => .error (.malformed path)
        | some settings => .ok (some settings)

/-- The settings of a run, for which a file may be named. -/
def load
    {Store : Type}
    [Storage Store]
    (store : Store)
    (named : Option Path) :
    Except SettingsError Settings :=
  match named with
  | some path =>
      match read store path with
      | .error error => .error error
      | .ok none => .error (.notFound path)
      | .ok (some settings) => .ok settings
  | none => (read store usualFile).map fun settings => settings.getD {}

end Settings
end FortranDocs
