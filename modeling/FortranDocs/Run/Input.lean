import FortranDocs.Run.Error
import FortranDocs.Run.Event
import FortranDocs.Run.Listing
import FortranDocs.Tree.Parse

/-!
# Runs over the standard input

A run without files takes its standard input as one source.  It prints either the
list of the source's undocumented constructs or the documented source.
-/

namespace FortranDocs
namespace StandardInput

/-- The name of the standard input in a listing. -/
def name : String := "<stdin>"

/-- The source that the standard input holds. -/
def source (input : List UInt8) : Except RunError Tree :=
  match Utf8.decode input with
  | .error _ => .error .inputNotText
  | .ok text =>
      match Tree.parse text with
      | .error error => .error (.inputUnparsed error)
      | .ok tree => .ok tree

/-- The documented source, and what happened on the way to it. -/
def document
    {Memory : Type}
    (engine : Engine Memory)
    (overwrite : Bool)
    (memory : Memory)
    (tree : Tree) :
    List Event × Except RunError Text :=
  let (tree, pass, failure) := tree.document engine overwrite memory
  let events := Event.ofPass pass
  match failure with
  | some failure => (events, .error (.inputUndocumented failure))
  | none => (events ++ [.documentedInput pass.report], .ok tree.source)

end StandardInput
end FortranDocs
