import FortranDocs.Proofs.Tree.Canonical
import FortranDocs.Proofs.Tree.Frames

/-!
# The line numbers of a tree

A reading numbers every construct by its first line.  `Tree.renumbered` puts these
numbers into any tree and changes nothing else, so that a well-cut tree becomes a
canonical one.
-/

namespace FortranDocs

namespace Frame

/-- The frame without its line number. -/
def withoutLine (frame : Frame) : Frame :=
  { frame with line := 0 }

/-- Frames with the same line number are equal if all else is. -/
theorem eq_of_withoutLine_eq
    {left right : Frame}
    (same : left.withoutLine = right.withoutLine)
    (line_eq : left.line = right.line) :
    left = right := by
  have left_eq : left = { left.withoutLine with line := left.line } := rfl
  rw [left_eq, same, line_eq]
  rfl

end Frame

namespace Node

mutual

/-- Number every construct of a node by its first line; so many lines stand in front of
the node. -/
def renumber (offset : Nat) : Node -> Node
  | .text lines => .text lines
  | .construct frame body =>
      .construct { frame with line := offset + 1 }
        (renumberAll (offset + frame.headerLines.length + frame.doc.length) body)

/-- Number every construct of a sequence of nodes. -/
def renumberAll (offset : Nat) : List Node -> List Node
  | [] => []
  | node :: rest => node.renumber offset :: renumberAll (offset + node.lines.length) rest

end

@[simp] theorem renumberAll_nil (offset : Nat) : renumberAll offset [] = [] := by
  simp only [renumberAll]

@[simp] theorem renumberAll_text (offset : Nat) (lines : List Line) (rest : List Node) :
    renumberAll offset (.text lines :: rest) =
      .text lines :: renumberAll (offset + lines.length) rest := by
  simp only [renumberAll, renumber, Node.lines]

@[simp] theorem renumberAll_construct
    (offset : Nat)
    (frame : Frame)
    (body rest : List Node) :
    renumberAll offset (.construct frame body :: rest) =
      .construct { frame with line := offset + 1 }
          (renumberAll (offset + frame.headerLines.length + frame.doc.length) body) ::
        renumberAll (offset + (construct frame body).lines.length) rest := by
  simp only [renumberAll, renumber]

/-- Numbering makes no nodes. -/
theorem isEmpty_renumberAll (offset : Nat) (nodes : List Node) :
    (renumberAll offset nodes).isEmpty = nodes.isEmpty := by
  cases nodes with
  | nil => simp
  | cons node rest => simp [renumberAll]

/-- Numbering leaves texts texts and constructs constructs. -/
theorem head?_renumberAll (offset : Nat) (nodes : List Node) :
    (renumberAll offset nodes).head?.map isText = nodes.head?.map isText := by
  cases nodes with
  | nil => simp
  | cons node rest => cases node <;> simp [isText]

/-- Numbers are no part of the text. -/
theorem sourcesOfAll_renumberAll (offset : Nat) (nodes : List Node) :
    sourcesOfAll (renumberAll offset nodes) = sourcesOfAll nodes := by
  induction nodes using inductionAll generalizing offset with
  | nil => simp
  | text lines rest restHypothesis => simp [sourcesOfAll, source, restHypothesis]
  | construct frame body rest bodyHypothesis restHypothesis =>
      rw [renumberAll_construct]
      simp only [sourcesOfAll, source, isEmpty_renumberAll, bodyHypothesis, restHypothesis]
      rfl

/-- Numbers are no part of the lines. -/
theorem linesOfAll_renumberAll (offset : Nat) (nodes : List Node) :
    linesOfAll (renumberAll offset nodes) = linesOfAll nodes := by
  induction nodes using inductionAll generalizing offset with
  | nil => simp
  | text lines rest restHypothesis => simp [linesOfAll, Node.lines, restHypothesis]
  | construct frame body rest bodyHypothesis restHypothesis =>
      rw [renumberAll_construct]
      simp only [linesOfAll, Node.lines, bodyHypothesis, restHypothesis]
      rfl

/-- What a reader cuts does not depend on numbers. -/
theorem wellCutAll_renumberAll
    {nodes : List Node}
    (wellCut : WellCutAll nodes)
    (offset : Nat) :
    WellCutAll (renumberAll offset nodes) := by
  induction nodes using inductionAll generalizing offset with
  | nil => rwa [renumberAll_nil]
  | text lines rest restHypothesis =>
      simp only [WellCutAll] at wellCut
      obtain ⟨nodeCut, separated, restCut⟩ := wellCut
      rw [renumberAll_text]
      simp only [WellCutAll]
      refine ⟨nodeCut, ?_, restHypothesis restCut _⟩
      intro text
      exact isText_eq_false_of_head?_eq (head?_renumberAll _ rest) (separated text)
  | construct frame body rest bodyHypothesis restHypothesis =>
      simp only [WellCutAll, WellCut] at wellCut
      obtain ⟨⟨frameCut, bodyCut⟩, -, restCut⟩ := wellCut
      rw [renumberAll_construct]
      simp only [WellCutAll, WellCut, linesOfAll_renumberAll, isText]
      refine ⟨⟨?_, bodyHypothesis bodyCut _⟩, by simp, restHypothesis restCut _⟩
      exact
        { opened := frameCut.opened
          parts := frameCut.parts
          unclosed := frameCut.unclosed
          closed := frameCut.closed
          indent := frameCut.indent }

/-- Nodes that were numbered have the right numbers. -/
theorem numberedAll_renumberAll (offset : Nat) (nodes : List Node) :
    NumberedAll offset (renumberAll offset nodes) := by
  induction nodes using inductionAll generalizing offset with
  | nil => simp [NumberedAll]
  | text lines rest restHypothesis =>
      simp only [renumberAll_text, NumberedAll, Numbered, Node.lines, true_and]
      exact restHypothesis _
  | construct frame body rest bodyHypothesis restHypothesis =>
      simp only [renumberAll_construct, NumberedAll, Numbered, true_and]
      refine ⟨bodyHypothesis _, ?_⟩
      have sameLines :
          (construct { frame with line := offset + 1 }
              (renumberAll (offset + frame.headerLines.length + frame.doc.length)
                body)).lines =
            (construct frame body).lines := by
        simp only [Node.lines, linesOfAll_renumberAll]
        rfl
      rw [sameLines]
      exact restHypothesis _

/-- Numbering leaves the number of constructs. -/
theorem countAll_renumberAll (offset : Nat) (nodes : List Node) :
    countAll (renumberAll offset nodes) = countAll nodes := by
  induction nodes using inductionAll generalizing offset with
  | nil => simp
  | text lines rest restHypothesis => simp [countAll, count, restHypothesis]
  | construct frame body rest bodyHypothesis restHypothesis =>
      simp [countAll, count, bodyHypothesis, restHypothesis]

/-- Numbering changes nothing but the numbers. -/
theorem mapFramesOfAll_withoutLine_renumberAll (offset number : Nat) (nodes : List Node) :
    mapFramesOfAll (fun _ => Frame.withoutLine) number (renumberAll offset nodes) =
      mapFramesOfAll (fun _ => Frame.withoutLine) number nodes := by
  induction nodes using inductionAll generalizing offset number with
  | nil => simp
  | text lines rest restHypothesis => simp [restHypothesis]
  | construct frame body rest bodyHypothesis restHypothesis =>
      simp [bodyHypothesis, restHypothesis, Frame.withoutLine, countAll_renumberAll]

end Node

namespace Tree

/-- The tree with every construct numbered by its first line. -/
def renumbered (tree : Tree) : Tree where
  nodes := Node.renumberAll 0 tree.nodes

/-- The tree without line numbers: its shape, its texts and everything else that its
constructs hold. -/
def withoutLines (tree : Tree) : Tree :=
  tree.mapFrames fun _ => Frame.withoutLine

/-- A numbered tree has the same text. -/
theorem source_renumbered (tree : Tree) : tree.renumbered.source = tree.source := by
  rw [source, renumbered, Node.sourcesOfAll_renumberAll, source]

/-- A numbered tree differs in its numbers alone. -/
theorem withoutLines_renumbered (tree : Tree) :
    tree.renumbered.withoutLines = tree.withoutLines := by
  rw [withoutLines, mapFrames, renumbered, Node.mapFramesOfAll_withoutLine_renumberAll]
  rfl

theorem map_withoutLine_renumbered (tree : Tree) :
    tree.renumbered.frames.map Frame.withoutLine = tree.frames.map Frame.withoutLine := by
  have frames_eq := congrArg frames (withoutLines_renumbered tree)
  rwa [withoutLines, withoutLines, frames_mapFrames, frames_mapFrames] at frames_eq

/-- A well-cut tree whose lines are lines becomes canonical with the right numbers. -/
theorem canonical_renumbered
    {tree : Tree}
    (nonempty : tree.nodes ≠ [])
    (wellCut : Node.WellCutAll tree.nodes)
    (whole : ∀ line ∈ tree.lines, '\n' ∉ line) :
    tree.renumbered.Canonical where
  nonempty := by
    rw [Ne, ← List.isEmpty_iff, renumbered, Node.isEmpty_renumberAll, List.isEmpty_iff]
    exact nonempty
  nodes :=
    { wellCut := Node.wellCutAll_renumberAll wellCut 0
      numbered := Node.numberedAll_renumberAll 0 tree.nodes }
  whole := by rwa [lines, renumbered, Node.linesOfAll_renumberAll]

end Tree
end FortranDocs
