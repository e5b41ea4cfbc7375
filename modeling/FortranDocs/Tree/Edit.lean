import FortranDocs.Tree.Basic

/-!
# Rewriting documentation in a tree

Constructs are addressed by their number in pre-order, by a path of node indexes,
or one after the other by a visitor.  Every edit goes through `Frame.writeDoc`.
-/

namespace FortranDocs

/-- What a visitor does with a construct that it is shown. -/
inductive Visit (State : Type) (Failure : Type)
  /-- Leave the construct as it is. -/
  | keep (state : State)
  /-- Write documentation into the construct. -/
  | write (doc : Text) (state : State)
  /-- End the whole pass; the construct stays as it is. -/
  | stop (failure : Failure) (state : State)

/-- A visitor is shown the nesting depth of a construct, the construct and the
state so far. -/
abbrev Visitor (State : Type) (Failure : Type) :=
  Nat -> Construct -> State -> Visit State Failure

namespace Node

mutual

/-- The number of constructs in a node. -/
def count : Node -> Nat
  | .text _ => 0
  | .construct _ body => 1 + countAll body

/-- The number of constructs in a sequence of nodes. -/
def countAll : List Node -> Nat
  | [] => 0
  | node :: rest => node.count + countAll rest

end

mutual

/-- Change every frame of a node by a function of its construct's number; the
first construct of the node has the number given. -/
def mapFrames (change : Nat -> Frame -> Frame) (number : Nat) : Node -> Node
  | .text lines => .text lines
  | .construct frame body =>
      .construct (change number frame) (mapFramesOfAll change (number + 1) body)

/-- Change every frame of a sequence of nodes. -/
def mapFramesOfAll (change : Nat -> Frame -> Frame) (number : Nat) :
    List Node -> List Node
  | [] => []
  | node :: rest =>
      node.mapFrames change number :: mapFramesOfAll change (number + node.count) rest

end

mutual

/-- Show every construct of a node to a visitor, each in front of those in its
body, until the visitor stops.  The result is the changed node, the last state and
the failure, if the visitor stopped. -/
def visit
    {State Failure : Type}
    (visitor : Visitor State Failure)
    (depth : Nat) :
    Node -> State -> Node × State × Option Failure
  | .text lines, state => (.text lines, state, none)
  | .construct frame body, state =>
      match visitor depth { toFrame := frame, body } state with
      | .stop failure state => (.construct frame body, state, some failure)
      | .keep state =>
          let (body, outcome) := visitAll visitor (depth + 1) body state
          (.construct frame body, outcome)
      | .write doc state =>
          let (body, outcome) := visitAll visitor (depth + 1) body state
          (.construct (frame.writeDoc doc) body, outcome)

/-- Show every construct of a sequence of nodes to a visitor. -/
def visitAll
    {State Failure : Type}
    (visitor : Visitor State Failure)
    (depth : Nat) :
    List Node -> State -> List Node × State × Option Failure
  | [], state => ([], state, none)
  | node :: rest, state =>
      match node.visit visitor depth state with
      | (node, state, some failure) => (node :: rest, state, some failure)
      | (node, state, none) =>
          let (rest, outcome) := visitAll visitor depth rest state
          (node :: rest, outcome)

end

/-- Write documentation into the construct at a path of node indexes, of which
each leads into the body of the construct found so far.  The construct comes back
with the changed nodes. -/
def writeAlong (doc : Text) : (path : List Nat) -> List Node -> Option (List Node × Construct)
  | [], _ => none
  | index :: path, nodes =>
      match nodes[index]? with
      | none => none
      | some (.text _) => none
      | some (.construct frame body) =>
          if path.isEmpty then
            let frame := frame.writeDoc doc
            some (nodes.set index (.construct frame body), { toFrame := frame, body })
          else
            (writeAlong doc path body).map fun (body, written) =>
              (nodes.set index (.construct frame body), written)

end Node

namespace Tree

/-- Show every construct of a tree to a visitor, each in front of those in its
body, until the visitor stops. -/
def visit
    {State Failure : Type}
    (visitor : Visitor State Failure)
    (tree : Tree)
    (state : State) :
    Tree × State × Option Failure :=
  let (nodes, outcome) := Node.visitAll visitor 0 tree.nodes state
  ({ nodes }, outcome)

/-- Change every frame of a tree by a function of its construct's number in
pre-order, counted from zero. -/
def mapFrames (change : Nat -> Frame -> Frame) (tree : Tree) : Tree where
  nodes := Node.mapFramesOfAll change 0 tree.nodes

/-- Write documentation into the construct with a given number.  Without such a
construct nothing changes. -/
def writeDoc (index : Nat) (doc : Text) (tree : Tree) : Tree :=
  tree.mapFrames fun number frame =>
    if number = index then frame.writeDoc doc else frame

/-- Write documentation into constructs one after the other, each given by its number
and the text. -/
def edit (steps : List (Nat × Text)) (tree : Tree) : Tree :=
  steps.foldl (fun tree (index, doc) => tree.writeDoc index doc) tree

/-- Write documentation into the construct at a path of node indexes. -/
def writeAlong (path : List Nat) (doc : Text) (tree : Tree) : Option (Tree × Construct) :=
  (Node.writeAlong doc path tree.nodes).map fun (nodes, written) => ({ nodes }, written)

end Tree
end FortranDocs
