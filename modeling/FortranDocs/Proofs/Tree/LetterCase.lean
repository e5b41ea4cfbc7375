import FortranDocs.Proofs.LetterCase

/-!
# Letter case in a source

A source in small letters is read into the tree of the source in small letters:
`Tree.parse_lowered`.  Sources that differ in the case of letters alone share this tree, so
`Tree.parse_of_sameButCase` finds both read alike, down to the texts of their constructs.
-/

namespace FortranDocs

namespace Frame

/-- The frame with all its lines in small letters. -/
def lowered (frame : Frame) : Frame :=
  { frame with
    opener := Text.lowered frame.opener
    continuation := frame.continuation.map Text.lowered
    doc := frame.doc.map Text.lowered
    closing := Text.lowered frame.closing }

/-- A reader takes a frame in small letters like the frame. -/
theorem alike_lowered (frame : Frame) : frame.Alike frame.lowered where
  kind := rfl
  line := rfl
  opener := Line.alike_lowered frame.opener
  continuation := List.forall₂_map_right_iff.mpr
    (List.forall₂_same.mpr fun line _ => Line.alike_lowered line)
  doc := List.forall₂_map_right_iff.mpr
    (List.forall₂_same.mpr fun line _ => Line.alike_lowered line)
  closing := Line.alike_lowered frame.closing
  indent := rfl

theorem header_lowered (frame : Frame) : frame.lowered.header = Text.lowered frame.header := by
  rw [header, header, Text.lowered_joinLines]
  rfl

theorem docBlock_lowered (frame : Frame) :
    frame.lowered.docBlock = Text.lowered frame.docBlock := by
  simp only [docBlock, lowered, Text.lowered, List.flatMap_map, List.map_flatMap,
    List.map_append, List.map_cons, List.map_nil]
  rfl

theorem lineEnding_lowered (frame : Frame) : frame.lowered.lineEnding = frame.lineEnding :=
  LineEnding.ofLine_lowered frame.opener

theorem hasDoc_lowered (frame : Frame) : frame.lowered.hasDoc = frame.hasDoc := by
  simp [hasDoc, lowered]

/-- Two frames that are the same but for the case of letters in their texts. -/
structure SameButCase (left right : Frame) : Prop where
  kind : left.kind = right.kind
  line : left.line = right.line
  indent : left.indent = right.indent
  lineEnding : left.lineEnding = right.lineEnding
  hasDoc : left.hasDoc = right.hasDoc
  header : left.header.SameButCase right.header
  doc : left.docBlock.SameButCase right.docBlock
  closing : Text.SameButCase left.closing right.closing

/-- Frames that share their small letters differ in case alone. -/
theorem sameButCase_of_lowered_eq {left right : Frame} (same : left.lowered = right.lowered) :
    left.SameButCase right where
  kind := show left.lowered.kind = right.lowered.kind from congrArg Frame.kind same
  line := show left.lowered.line = right.lowered.line from congrArg Frame.line same
  indent := show left.lowered.indent = right.lowered.indent from congrArg Frame.indent same
  lineEnding := by
    rw [← lineEnding_lowered, same, lineEnding_lowered]
  hasDoc := by
    rw [← hasDoc_lowered, same, hasDoc_lowered]
  header := by
    rw [Text.SameButCase, ← header_lowered, same, header_lowered]
  doc := by
    rw [Text.SameButCase, ← docBlock_lowered, same, docBlock_lowered]
  closing := show left.lowered.closing = right.lowered.closing from congrArg Frame.closing same

end Frame

namespace Node

mutual

/-- The node with all its lines in small letters. -/
def lowered : Node -> Node
  | .text lines => .text (lines.map Text.lowered)
  | .construct frame body => .construct frame.lowered (loweredAll body)

/-- The same for a sequence of nodes. -/
def loweredAll : List Node -> List Node
  | [] => []
  | node :: rest => node.lowered :: loweredAll rest

end

/-- A reader takes nodes in small letters like the nodes. -/
theorem alikeAll_loweredAll (nodes : List Node) : AlikeAll nodes (loweredAll nodes) := by
  induction nodes using inductionAll with
  | nil =>
      simp only [loweredAll]
      exact .nil
  | text lines rest restHypothesis =>
      simp only [loweredAll, lowered]
      refine .text ?_ restHypothesis
      exact List.forall₂_map_right_iff.mpr
        (List.forall₂_same.mpr fun line _ => Line.alike_lowered line)
  | construct frame body rest bodyHypothesis restHypothesis =>
      simp only [loweredAll, lowered]
      exact .construct frame.alike_lowered bodyHypothesis restHypothesis

/-- The lines of nodes in small letters are their lines, in small letters. -/
theorem linesOfAll_loweredAll (nodes : List Node) :
    linesOfAll (loweredAll nodes) = (linesOfAll nodes).map Text.lowered := by
  induction nodes using inductionAll with
  | nil => simp [loweredAll, linesOfAll]
  | text lines rest restHypothesis =>
      simp [loweredAll, lowered, linesOfAll, Node.lines, restHypothesis]
  | construct frame body rest bodyHypothesis restHypothesis =>
      simp [loweredAll, lowered, linesOfAll, Node.lines, bodyHypothesis, restHypothesis,
        Frame.lowered, Frame.headerLines]

/-- Two sequences of nodes of the same shape: their constructs are the same but for the case
of letters, and so are the texts between them. -/
inductive SameButCaseAll : List Node -> List Node -> Prop
  | nil : SameButCaseAll [] []
  | text
      {lines otherLines : List Line}
      {rest otherRest : List Node}
      (same : (Node.text lines).source.SameButCase (Node.text otherLines).source)
      (restSame : SameButCaseAll rest otherRest) :
      SameButCaseAll (.text lines :: rest) (.text otherLines :: otherRest)
  | construct
      {frame otherFrame : Frame}
      {body otherBody rest otherRest : List Node}
      (same : frame.SameButCase otherFrame)
      (bodySame : SameButCaseAll body otherBody)
      (restSame : SameButCaseAll rest otherRest) :
      SameButCaseAll (.construct frame body :: rest) (.construct otherFrame otherBody :: otherRest)

/-- Nodes that share their small letters differ in case alone. -/
theorem sameButCaseAll_of_loweredAll_eq
    {nodes others : List Node}
    (same : loweredAll nodes = loweredAll others) :
    SameButCaseAll nodes others := by
  induction nodes using inductionAll generalizing others with
  | nil =>
      cases others with
      | nil => exact .nil
      | cons other rest => simp [loweredAll] at same
  | text lines rest restHypothesis =>
      cases others with
      | nil => simp [loweredAll] at same
      | cons other otherRest =>
          cases other with
          | text otherLines =>
              simp only [loweredAll, lowered, List.cons.injEq, Node.text.injEq] at same
              refine .text ?_ (restHypothesis same.2)
              simp only [Node.source, Text.SameButCase, Text.lowered_joinLines, same.1]
          | construct frame body => simp [loweredAll, lowered] at same
  | construct frame body rest bodyHypothesis restHypothesis =>
      cases others with
      | nil => simp [loweredAll] at same
      | cons other otherRest =>
          cases other with
          | text otherLines => simp [loweredAll, lowered] at same
          | construct otherFrame otherBody =>
              simp only [loweredAll, lowered, List.cons.injEq, Node.construct.injEq] at same
              obtain ⟨⟨sameFrame, sameBody⟩, sameRest⟩ := same
              exact .construct (Frame.sameButCase_of_lowered_eq sameFrame)
                (bodyHypothesis sameBody) (restHypothesis sameRest)

end Node

namespace Tree

/-- The tree with all its lines in small letters. -/
def lowered (tree : Tree) : Tree where
  nodes := Node.loweredAll tree.nodes

/-- A source in small letters is read into the tree in small letters, or it cannot be read for
the same reason. -/
theorem parse_lowered (source : Text) :
    parse (Text.lowered source) = (parse source).map lowered := by
  cases parsed : parse source with
  | error error =>
      apply parse_eq_error_of_alike _ parsed
      rw [Text.splitLines_lowered]
      exact List.forall₂_map_right_iff.mpr
        (List.forall₂_same.mpr fun line _ => Line.alike_lowered line)
  | ok tree =>
      obtain ⟨lines_eq, canonical⟩ := parse_eq_ok_iff_lines.mp parsed
      apply parse_eq_ok_iff_lines.mpr
      refine ⟨?_, (Node.alikeAll_loweredAll tree.nodes).canonical canonical⟩
      rw [Text.splitLines_lowered, ← lines_eq]
      exact Node.linesOfAll_loweredAll tree.nodes

/-- Sources that differ in the case of letters alone cannot be read for the same reason, or
they are read into trees of one shape.  Their constructs agree in kind, line, indentation,
line ending and whether they are documented, and all their texts differ in the case of letters
alone. -/
theorem parse_of_sameButCase {left right : Text} (same : left.SameButCase right) :
    (∃ error, parse left = .error error ∧ parse right = .error error) ∨
      ∃ tree other, parse left = .ok tree ∧ parse right = .ok other ∧
        Node.SameButCaseAll tree.nodes other.nodes := by
  have lowered_eq : (parse left).map lowered = (parse right).map lowered := by
    rw [← parse_lowered, same, parse_lowered]
  cases parsed : parse left with
  | error error =>
      cases otherParsed : parse right with
      | error otherError =>
          rw [parsed, otherParsed] at lowered_eq
          obtain rfl : error = otherError := Except.error.inj lowered_eq
          exact .inl ⟨error, rfl, rfl⟩
      | ok other =>
          rw [parsed, otherParsed] at lowered_eq
          cases lowered_eq
  | ok tree =>
      cases otherParsed : parse right with
      | error otherError =>
          rw [parsed, otherParsed] at lowered_eq
          cases lowered_eq
      | ok other =>
          rw [parsed, otherParsed] at lowered_eq
          have trees_eq : tree.lowered = other.lowered := Except.ok.inj lowered_eq
          exact .inr ⟨tree, other, rfl, rfl,
            Node.sameButCaseAll_of_loweredAll_eq (congrArg Tree.nodes trees_eq)⟩

/-- The nested module with some of its letters in the other case. -/
def shoutedSource : Text :=
  Text.joinLines
    ["! nOTES\r".toList, "MODULE M &\r".toList, "  ! Still Its Header\r".toList,
      "  ! dOCS.".toList, [], "  Type T &".toList, "  eND tYPE".toList, [],
      "  CONTAINS".toList, "  SubRoutine s".toList, "  END SUBROUTINE S".toList,
      "End Module m\r".toList, []]

/-- The nested module is read alike in other cases. -/
theorem parse_of_sameButCase_nestedSource :
    nestedSource.SameButCase shoutedSource ∧
      ∃ other, parse shoutedSource = .ok other ∧
        Node.SameButCaseAll nestedTree.nodes other.nodes := by
  have same : nestedSource.SameButCase shoutedSource := by
    rw [← (parse_eq_ok_iff.mp parse_nestedSource).2]
    decide +kernel
  refine ⟨same, ?_⟩
  rcases parse_of_sameButCase same with ⟨error, failed, -⟩ | ⟨tree, other, parsed, read, alike⟩
  · rw [parse_nestedSource] at failed
    cases failed
  · rw [parse_nestedSource] at parsed
    obtain rfl := Except.ok.inj parsed
    exact ⟨other, read, alike⟩

end Tree
end FortranDocs
