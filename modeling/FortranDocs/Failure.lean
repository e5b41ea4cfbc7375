/-!
# Failures with their causes

A failure is a message together with the messages of what caused it, the
outermost first.  `Failure.report` is the text in which a program shows one to its
user.
-/

namespace FortranDocs

/-- What went wrong, and why. -/
structure Failure where
  /-- The outermost message. -/
  message : String
  /-- The messages of the causes, each the cause of the one in front of it. -/
  causes : List String
  deriving DecidableEq, Repr

namespace Failure

/-- A failure without a further cause. -/
def root (message : String) : Failure :=
  { message, causes := [] }

/-- All messages, the outermost first. -/
def chain (failure : Failure) : List String :=
  failure.message :: failure.causes

/-- The same failure seen from an enclosing action. -/
def within (context : String) (failure : Failure) : Failure :=
  { message := context, causes := failure.chain }

/-- Messages behind their positions, one to a line. -/
def numbered (position : Nat) : List String -> List String
  | [] => []
  | cause :: rest => s!"    {position}: {cause}" :: numbered (position + 1) rest

/-- The message and, if there are any, its causes.  A single cause is not
numbered. -/
def report (failure : Failure) : String :=
  match failure.causes with
  | [] => failure.message
  | [cause] => s!"{failure.message}\n\nCaused by:\n    {cause}"
  | causes =>
      let listed := "\n".intercalate (numbered 0 causes)
      s!"{failure.message}\n\nCaused by:\n{listed}"

end Failure
end FortranDocs
