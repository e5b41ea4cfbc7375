import FortranDocs.Engine
import FortranDocs.Tree.Edit

/-!
# The documentation pass

The pass asks an engine for the documentation of the constructs of a tree, one
after the other and the outer ones first, and writes the answers into the tree.
The list of undocumented constructs needs no engine.
-/

namespace FortranDocs

/-- What a pass did. -/
structure Report where
  /-- The number of constructs whose documentation was written. -/
  documented : Nat := 0
  /-- The number of constructs left alone. -/
  skipped : Nat := 0
  deriving DecidableEq, Repr

namespace Report

/-- Whether a pass changed its tree. -/
def changed (report : Report) : Bool :=
  0 < report.documented

end Report

/-- The state of a pass. -/
structure Pass (Memory : Type) where
  /-- What the engine remembers. -/
  memory : Memory
  /-- What was done so far. -/
  report : Report := {}
  /-- The requests made so far, in order. -/
  requests : List Request := []
  /-- The line and kind of every construct that got a blank answer, in order. -/
  blanks : List (Nat × Kind) := []

/-- The failure of an engine at one construct. -/
structure EngineFailure where
  /-- The name of the engine. -/
  engine : String
  /-- The line of the construct. -/
  line : Nat
  /-- The first header line of the construct, trimmed. -/
  signature : Text
  /-- What the engine reported. -/
  cause : Failure
  deriving DecidableEq, Repr

namespace EngineFailure

/-- The failure with the construct as its context. -/
def toFailure (failure : EngineFailure) : Failure :=
  let signature := String.ofList failure.signature
  failure.cause.within
    s!"{failure.engine} engine failed on line {failure.line}: {signature}"

end EngineFailure

namespace Pass

/-- Deal with one construct: pass over it if it is documented and may not be
overwritten, and otherwise ask the engine.  A blank answer leaves the construct as
it is. -/
def visitor
    {Memory : Type}
    (engine : Engine Memory)
    (overwrite : Bool) :
    Visitor (Pass Memory) EngineFailure :=
  fun _ construct pass =>
    if construct.hasDoc && !overwrite then
      .keep { pass with
        report := { pass.report with skipped := pass.report.skipped + 1 } }
    else
      let request : Request := { kind := construct.kind, source := construct.source }
      let requests := pass.requests ++ [request]
      match engine.answer request pass.memory with
      | (.error cause, memory) =>
          let failure : EngineFailure :=
            { engine := engine.name
              line := construct.line
              signature := construct.signature
              cause }
          .stop failure { pass with memory, requests }
      | (.ok doc, memory) =>
          if Text.isBlank doc then
            .keep { pass with
              memory
              requests
              report := { pass.report with skipped := pass.report.skipped + 1 }
              blanks := pass.blanks ++ [(construct.line, construct.kind)] }
          else
            .write doc { pass with
              memory
              requests
              report := { pass.report with documented := pass.report.documented + 1 } }

end Pass

namespace Tree

/-- Ask an engine for documentation and write it into a tree.  The tree that comes
back holds whatever was written, also when the engine failed. -/
def document
    {Memory : Type}
    (engine : Engine Memory)
    (overwrite : Bool)
    (tree : Tree)
    (memory : Memory) :
    Tree × Pass Memory × Option EngineFailure :=
  tree.visit (Pass.visitor engine overwrite) { memory }

end Tree

/-- A construct without documentation. -/
structure Undocumented where
  /-- The kind of the construct. -/
  kind : Kind
  /-- The line of the construct. -/
  line : Nat
  /-- The number of constructs around the construct. -/
  depth : Nat
  /-- The first header line of the construct, trimmed. -/
  signature : Text
  deriving DecidableEq, Repr

namespace Node

mutual

/-- The constructs of a node without documentation, each in front of those in its
body.  The node lies in some number of constructs. -/
def undocumented (depth : Nat) : Node -> List Undocumented
  | .text _ => []
  | .construct frame body =>
      let below := undocumentedOfAll (depth + 1) body
      if frame.hasDoc then
        below
      else
        { kind := frame.kind
          line := frame.line
          depth
          signature := frame.signature } :: below

/-- The constructs of a sequence of nodes without documentation. -/
def undocumentedOfAll (depth : Nat) : List Node -> List Undocumented
  | [] => []
  | node :: rest => node.undocumented depth ++ undocumentedOfAll depth rest

end

end Node

namespace Tree

/-- Every construct without documentation, in source order. -/
def undocumented (tree : Tree) : List Undocumented :=
  Node.undocumentedOfAll 0 tree.nodes

end Tree
end FortranDocs
