import FortranDocs.Kind

/-!
# The tree of a source

A source is a sequence of nodes.  A node is a run of opaque lines or a construct:
a header, a documentation block, a nested body and a closing line.  A tree holds
the lines of its source as they are and is written out node by node; only the
documentation block of a construct is ever rewritten.
-/

namespace FortranDocs

/-- What a construct holds around its body. -/
structure Frame where
  /-- The kind of block. -/
  kind : Kind
  /-- The line of the source at which the construct was found, counted from one. -/
  line : Nat
  /-- The first line of the header. -/
  opener : Line
  /-- The continuation lines of the header. -/
  continuation : List Line
  /-- The lines of the documentation block. -/
  doc : List Line
  /-- The closing line. -/
  closing : Line
  /-- The indentation of the first body line that is not blank, or zero. -/
  indent : Nat
  deriving DecidableEq, Repr

namespace Frame

/-- All lines of the header. -/
def headerLines (frame : Frame) : List Line :=
  frame.opener :: frame.continuation

/-- The text of the header. -/
def header (frame : Frame) : Text :=
  Text.joinLines frame.headerLines

/-- The first line of the header without white space around it. -/
def signature (frame : Frame) : Text :=
  Text.trim frame.opener

/-- Whether there is a documentation block. -/
def hasDoc (frame : Frame) : Bool :=
  !frame.doc.isEmpty

/-- The text of the documentation block, each of its lines ended by a line feed. -/
def docBlock (frame : Frame) : Text :=
  frame.doc.flatMap fun line => line ++ ['\n']

/-- A documentation line without its indentation, its marker and the one space
behind the marker. -/
def uncommented (line : Line) : Line :=
  let unmarked :=
    match Text.trimStart (Text.withoutReturn line) with
    | '!' :: rest => rest
    | other => other
  match unmarked with
  | ' ' :: rest => rest
  | other => other

/-- What the documentation block says. -/
def docText (frame : Frame) : Text :=
  Text.joinLines (frame.doc.map uncommented)

/-- The ending that new lines of the construct get. -/
def lineEnding (frame : Frame) : LineEnding :=
  LineEnding.ofLine frame.opener

/-- A line of documentation as it stands in the source. -/
def commented (frame : Frame) (line : Line) : Line :=
  List.replicate frame.indent ' ' ++ '!' :: ' ' :: line ++ frame.lineEnding.tail

/-- Replace the documentation block by the lines of a text.  A text without
lines removes the block. -/
def writeDoc (doc : Text) (frame : Frame) : Frame :=
  { frame with doc := (Text.lines doc).map frame.commented }

end Frame

/-- One element of a source or of a body. -/
inductive Node
  | text (lines : List Line)
  | construct (frame : Frame) (body : List Node)

/-- A construct: its frame and its body. -/
structure Construct extends Frame where
  /-- The nodes of the body. -/
  body : List Node

namespace Node

/-- Induction on sequences of nodes: a fact about a sequence may be used for the body
and the rest behind a first construct. -/
@[elab_as_elim]
theorem inductionAll
    {motive : List Node -> Prop}
    (nil : motive [])
    (text : ∀ lines rest, motive rest → motive (.text lines :: rest))
    (construct :
      ∀ frame body rest, motive body → motive rest →
        motive (.construct frame body :: rest)) :
    ∀ nodes, motive nodes
  | [] => nil
  | .text lines :: rest => text lines rest (inductionAll nil text construct rest)
  | .construct frame body :: rest =>
      construct frame body rest
        (inductionAll nil text construct body) (inductionAll nil text construct rest)

/-- Whether two nodes are the same in all their parts. -/
protected def decEq : (left right : Node) -> Decidable (left = right)
  | .text left, .text right =>
      if same : left = right then
        isTrue (by rw [same])
      else
        isFalse (by simpa using same)
  | .text _, .construct _ _ => isFalse (by simp)
  | .construct _ _, .text _ => isFalse (by simp)
  | .construct left leftBody, .construct right rightBody =>
      if same : left = right then
        match decEqAll leftBody rightBody with
        | isTrue sameBody => isTrue (by rw [same, sameBody])
        | isFalse different => isFalse (by simp [different])
      else
        isFalse (by simp [same])
where
  /-- The same for lists of nodes. -/
  decEqAll : (left right : List Node) -> Decidable (left = right)
    | [], [] => isTrue rfl
    | [], _ :: _ => isFalse (by simp)
    | _ :: _, [] => isFalse (by simp)
    | left :: lefts, right :: rights =>
        match Node.decEq left right with
        | isTrue same =>
            match decEqAll lefts rights with
            | isTrue sameRest => isTrue (by rw [same, sameRest])
            | isFalse different => isFalse (by simp [different])
        | isFalse different => isFalse (by simp [different])

instance : DecidableEq Node := Node.decEq

mutual

/-- The lines of a node, in order. -/
def lines : Node -> List Line
  | .text lines => lines
  | .construct frame body =>
      frame.headerLines ++ frame.doc ++ linesOfAll body ++ [frame.closing]

/-- The lines of a sequence of nodes. -/
def linesOfAll : List Node -> List Line
  | [] => []
  | node :: rest => node.lines ++ linesOfAll rest

end

mutual

/-- The text of a node.  A construct is its header, its documentation block, its body
and its closing line; a body without nodes takes no line. -/
def source : Node -> Text
  | .text lines => Text.joinLines lines
  | .construct frame body =>
      let inside :=
        if body.isEmpty then [] else Text.joinLines (sourcesOfAll body) ++ ['\n']
      frame.header ++ '\n' :: frame.docBlock ++ inside ++ frame.closing

/-- The texts of a sequence of nodes, one by one. -/
def sourcesOfAll : List Node -> List Text
  | [] => []
  | node :: rest => node.source :: sourcesOfAll rest

end

/-- The kind of a construct. -/
def kind? : Node -> Option Kind
  | .text _ => none
  | .construct frame _ => some frame.kind

mutual

/-- A node and everything below it, each node in front of its body. -/
def walk : Node -> List Node
  | .text lines => [.text lines]
  | .construct frame body => .construct frame body :: walkAll body

/-- Every node of a sequence and everything below, in the same order. -/
def walkAll : List Node -> List Node
  | [] => []
  | node :: rest => node.walk ++ walkAll rest

end

mutual

/-- The constructs of a node with their nesting depths, each in front of those in
its body. -/
def constructs (depth : Nat) : Node -> List (Nat × Construct)
  | .text _ => []
  | .construct frame body =>
      (depth, { toFrame := frame, body }) :: constructsOfAll (depth + 1) body

/-- The constructs of a sequence of nodes. -/
def constructsOfAll (depth : Nat) : List Node -> List (Nat × Construct)
  | [] => []
  | node :: rest => node.constructs depth ++ constructsOfAll depth rest

end

end Node

namespace Construct

/-- The construct as a node. -/
def toNode (construct : Construct) : Node :=
  .construct construct.toFrame construct.body

/-- The lines of a construct. -/
def lines (construct : Construct) : List Line :=
  construct.toNode.lines

/-- The text of a construct. -/
def source (construct : Construct) : Text :=
  construct.toNode.source

end Construct

/-- A whole source as a sequence of nodes. -/
structure Tree where
  /-- The nodes of the source. -/
  nodes : List Node
  deriving DecidableEq

namespace Tree

/-- The lines of a tree. -/
def lines (tree : Tree) : List Line :=
  Node.linesOfAll tree.nodes

/-- The text of a tree: the texts of its nodes with a line feed between neighbours. -/
def source (tree : Tree) : Text :=
  Text.joinLines (Node.sourcesOfAll tree.nodes)

/-- Every node of a tree, each in front of those in its body. -/
def walk (tree : Tree) : List Node :=
  Node.walkAll tree.nodes

/-- Every construct with its nesting depth, each in front of those in its body. -/
def constructs (tree : Tree) : List (Nat × Construct) :=
  Node.constructsOfAll 0 tree.nodes

end Tree
end FortranDocs
