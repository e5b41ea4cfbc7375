import FortranDocs.Proofs.Interior

/-!
# Canonical trees

The trees that a source is read into, described without reading: where each text and
each construct may begin and end (`Node.WellCut`), and which line number each construct
carries (`Node.Numbered`).
-/

namespace FortranDocs

namespace Frame

/-- A frame and the lines of its body are cut where a reader would cut them. -/
structure WellCut (frame : Frame) (body : List Line) : Prop where
  /-- The first header line opens the kind, and no other kind before it. -/
  opened : Kind.openedBy frame.opener = some frame.kind
  /-- Header and documentation are as long as they can be. -/
  parts : Interior.Maximal frame.opener ⟨frame.continuation, frame.doc, body⟩
  /-- Neither a further header line nor a body line closes the kind. -/
  unclosed : ∀ line ∈ frame.continuation ++ body, frame.kind.closes line = false
  /-- The closing line closes the kind. -/
  closed : frame.kind.closes frame.closing = true
  /-- The indentation is that of the body. -/
  indent : frame.indent = Line.indentOf body

instance (frame : Frame) (body : List Line) : Decidable (frame.WellCut body) :=
  decidable_of_iff
    (Kind.openedBy frame.opener = some frame.kind ∧
      Interior.Maximal frame.opener ⟨frame.continuation, frame.doc, body⟩ ∧
        (∀ line ∈ frame.continuation ++ body, frame.kind.closes line = false) ∧
          frame.kind.closes frame.closing = true ∧ frame.indent = Line.indentOf body)
    ⟨fun ⟨opened, parts, unclosed, closed, indent⟩ =>
      { opened, parts, unclosed, closed, indent },
      fun wellCut =>
        ⟨wellCut.opened, wellCut.parts, wellCut.unclosed, wellCut.closed, wellCut.indent⟩⟩

end Frame

namespace Node

/-- Whether a node is opaque text. -/
def isText : Node -> Bool
  | .text _ => true
  | .construct _ _ => false

mutual

/-- A text has lines, of which none opens a block; a construct is cut where a reader
would cut it, at every depth. -/
def WellCut : Node -> Prop
  | .text lines => lines ≠ [] ∧ ∀ line ∈ lines, Kind.openedBy line = none
  | .construct frame body => frame.WellCut (linesOfAll body) ∧ WellCutAll body

/-- The same for a sequence of nodes, in which no two texts are neighbours. -/
def WellCutAll : List Node -> Prop
  | [] => True
  | node :: rest =>
      node.WellCut ∧
        (node.isText = true → ∀ next, rest.head? = some next → next.isText = false) ∧
        WellCutAll rest

end

mutual

/-- Every construct carries the number of its first line; so many lines stand in front
of the node. -/
def Numbered (offset : Nat) : Node -> Prop
  | .text _ => True
  | .construct frame body =>
      frame.line = offset + 1 ∧
        NumberedAll (offset + frame.headerLines.length + frame.doc.length) body

/-- The same for a sequence of nodes. -/
def NumberedAll (offset : Nat) : List Node -> Prop
  | [] => True
  | node :: rest =>
      node.Numbered offset ∧ NumberedAll (offset + node.lines.length) rest

end

/-- The nodes that are read from lines with so many lines in front. -/
structure Canonical (offset : Nat) (nodes : List Node) : Prop where
  /-- Every node is cut where a reader would cut it. -/
  wellCut : WellCutAll nodes
  /-- Every construct carries the number of its first line. -/
  numbered : NumberedAll offset nodes

mutual

/-- Whether a node is well cut. -/
def decideWellCut : (node : Node) -> Decidable node.WellCut
  | .text lines =>
      inferInstanceAs (Decidable (lines ≠ [] ∧ ∀ line ∈ lines, Kind.openedBy line = none))
  | .construct frame body =>
      have := decideWellCutAll body
      inferInstanceAs (Decidable (frame.WellCut (linesOfAll body) ∧ WellCutAll body))

/-- The same for a sequence of nodes. -/
def decideWellCutAll : (nodes : List Node) -> Decidable (WellCutAll nodes)
  | [] => inferInstanceAs (Decidable True)
  | node :: rest =>
      have := node.decideWellCut
      have := decideWellCutAll rest
      have : Decidable (∀ next ∈ rest.head?, next.isText = false) :=
        Option.decidableForallMem rest.head?
      inferInstanceAs (Decidable
        (node.WellCut ∧
          (node.isText = true → ∀ next ∈ rest.head?, next.isText = false) ∧
          WellCutAll rest))

end

mutual

/-- Whether every construct of a node carries the number of its first line. -/
def decideNumbered (offset : Nat) : (node : Node) -> Decidable (node.Numbered offset)
  | .text _ => inferInstanceAs (Decidable True)
  | .construct frame body =>
      have := decideNumberedAll
        (offset + frame.headerLines.length + frame.doc.length) body
      inferInstanceAs (Decidable
        (frame.line = offset + 1 ∧
          NumberedAll (offset + frame.headerLines.length + frame.doc.length) body))

/-- The same for a sequence of nodes. -/
def decideNumberedAll (offset : Nat) : (nodes : List Node) -> Decidable (NumberedAll offset nodes)
  | [] => inferInstanceAs (Decidable True)
  | node :: rest =>
      have := node.decideNumbered offset
      have := decideNumberedAll (offset + node.lines.length) rest
      inferInstanceAs (Decidable
        (node.Numbered offset ∧ NumberedAll (offset + node.lines.length) rest))

end

instance : DecidablePred WellCutAll := decideWellCutAll

instance (offset : Nat) : DecidablePred (NumberedAll offset) := decideNumberedAll offset

instance (offset : Nat) (nodes : List Node) : Decidable (Canonical offset nodes) :=
  decidable_of_iff (WellCutAll nodes ∧ NumberedAll offset nodes)
    ⟨fun ⟨wellCut, numbered⟩ => { wellCut, numbered },
      fun canonical => ⟨canonical.wellCut, canonical.numbered⟩⟩

/-! ## Lines of well-cut nodes -/

theorem lines_ne_nil {node : Node} (wellCut : node.WellCut) : node.lines ≠ [] := by
  cases node with
  | text lines =>
      simp only [WellCut] at wellCut
      exact wellCut.1
  | construct frame body => simp [lines, Frame.headerLines]

/-- Every one of some well-cut nodes is well cut. -/
theorem WellCutAll.of_mem
    {nodes : List Node}
    {node : Node}
    (wellCut : WellCutAll nodes)
    (present : node ∈ nodes) :
    node.WellCut := by
  induction nodes with
  | nil => cases present
  | cons first rest inductionHypothesis =>
      simp only [WellCutAll] at wellCut
      rcases List.mem_cons.mp present with rfl | inRest
      · exact wellCut.1
      · exact inductionHypothesis wellCut.2.2 inRest

theorem linesOfAll_eq_nil_iff {nodes : List Node} (wellCut : WellCutAll nodes) :
    linesOfAll nodes = [] ↔ nodes = [] := by
  cases nodes with
  | nil => simp [linesOfAll]
  | cons node rest =>
      simp only [WellCutAll] at wellCut
      simp [linesOfAll, lines_ne_nil wellCut.1]

theorem linesOfAll_append (front back : List Node) :
    linesOfAll (front ++ back) = linesOfAll front ++ linesOfAll back := by
  induction front with
  | nil => rfl
  | cons node rest inductionHypothesis =>
      simp [linesOfAll, inductionHypothesis]

@[simp] theorem linesOfAll_textOf (lines : List Line) : linesOfAll (textOf lines) = lines := by
  cases lines with
  | nil => rfl
  | cons line rest => simp [textOf, linesOfAll, Node.lines]

/-- No text stands at the front of nodes if none does in nodes of the same sorts. -/
theorem isText_eq_false_of_head?_eq
    {before after : List Node}
    (heads : after.head?.map isText = before.head?.map isText)
    (separated : ∀ next, before.head? = some next → next.isText = false) :
    ∀ next, after.head? = some next → next.isText = false := by
  intro next first
  rw [first, Option.map_some] at heads
  obtain ⟨old, oldFirst, same⟩ := Option.map_eq_some_iff.mp heads.symm
  rw [← same]
  exact separated old oldFirst

/-- The lines of a construct. -/
theorem lines_construct (frame : Frame) (body : List Node) :
    (construct frame body).lines =
      frame.headerLines ++ frame.doc ++ linesOfAll body ++ [frame.closing] := by
  simp only [lines]

/-! ## The constructs among nodes -/

/-- Induction on the place of a construct among nodes: it is the first node, or stands in the
body of the first node, or behind the first node. -/
@[elab_as_elim]
theorem mem_constructsOfAll_induction
    {found : Nat × Construct}
    {motive : (depth : Nat) -> (nodes : List Node) ->
      found ∈ constructsOfAll depth nodes -> Prop}
    (first : ∀ rest present, motive found.1 (found.2.toNode :: rest) present)
    (inside :
      ∀ depth frame body rest present inBody,
        motive (depth + 1) body inBody → motive depth (.construct frame body :: rest) present)
    (behind :
      ∀ depth node rest present inRest,
        motive depth rest inRest → motive depth (node :: rest) present)
    {depth : Nat}
    {nodes : List Node}
    (present : found ∈ constructsOfAll depth nodes) :
    motive depth nodes present := by
  induction nodes using inductionAll generalizing depth with
  | nil => simp [constructsOfAll] at present
  | text lines rest restHypothesis =>
      exact behind depth (.text lines) rest present present (restHypothesis present)
  | construct frame body rest bodyHypothesis restHypothesis =>
      have place := present
      simp only [constructsOfAll, constructs, List.cons_append, List.mem_cons,
        List.mem_append] at place
      rcases place with rfl | inBody | inRest
      · exact first rest present
      · exact inside depth frame body rest present inBody (bodyHypothesis inBody)
      · exact behind depth (.construct frame body) rest present inRest (restHypothesis inRest)

/-- The lines of a construct stand together among those of the nodes around it. -/
theorem lines_isInfix_of_mem_constructsOfAll
    {depth : Nat}
    {nodes : List Node}
    {found : Nat × Construct}
    (present : found ∈ constructsOfAll depth nodes) :
    found.2.lines <:+: linesOfAll nodes := by
  induction present using mem_constructsOfAll_induction with
  | first rest present => exact (List.prefix_append _ _).isInfix
  | inside depth frame body rest present inBody inductionHypothesis =>
      have inConstruct : linesOfAll body <:+: (construct frame body).lines := by
        rw [lines_construct]
        exact List.infix_append _ _ _
      exact (inductionHypothesis.trans inConstruct).trans (List.prefix_append _ _).isInfix
  | behind depth node rest present inRest inductionHypothesis =>
      exact inductionHypothesis.trans (List.suffix_append _ _).isInfix

/-- The constructs among well-cut nodes are well cut. -/
theorem wellCut_of_mem_constructsOfAll
    {depth : Nat}
    {nodes : List Node}
    {found : Nat × Construct}
    (wellCut : WellCutAll nodes)
    (present : found ∈ constructsOfAll depth nodes) :
    found.2.toNode.WellCut := by
  induction present using mem_constructsOfAll_induction with
  | first rest present =>
      simp only [WellCutAll] at wellCut
      exact wellCut.1
  | inside depth frame body rest present inBody inductionHypothesis =>
      simp only [WellCutAll, WellCut] at wellCut
      exact inductionHypothesis wellCut.1.2
  | behind depth node rest present inRest inductionHypothesis =>
      simp only [WellCutAll] at wellCut
      exact inductionHypothesis wellCut.2.2

/-! ## Leading text, first construct and rest -/

/-- Text in front of a construct keeps a sequence well cut exactly if none of its lines
opens a block. -/
theorem wellCutAll_textOf_append
    (before : List Line)
    (frame : Frame)
    (body rest : List Node) :
    WellCutAll (textOf before ++ construct frame body :: rest) ↔
      (∀ line ∈ before, Kind.openedBy line = none) ∧
        frame.WellCut (linesOfAll body) ∧ WellCutAll body ∧ WellCutAll rest := by
  cases before with
  | nil => simp [textOf, WellCutAll, WellCut, isText, and_assoc]
  | cons line others => simp [textOf, WellCutAll, WellCut, isText, and_assoc]

theorem numberedAll_textOf_append
    (offset : Nat)
    (before : List Line)
    (frame : Frame)
    (body rest : List Node) :
    NumberedAll offset (textOf before ++ construct frame body :: rest) ↔
      frame.line = offset + before.length + 1 ∧
        NumberedAll (offset + before.length + frame.headerLines.length + frame.doc.length)
          body ∧
        NumberedAll (offset + before.length + (construct frame body).lines.length) rest := by
  cases before with
  | nil => simp [textOf, NumberedAll, Numbered, and_assoc]
  | cons line others => simp [textOf, NumberedAll, Numbered, and_assoc, Node.lines]

/-- Text and a construct in front of further nodes are canonical exactly if the body and
the further nodes are, each at its own offset. -/
theorem canonical_textOf_append
    (offset : Nat)
    (before : List Line)
    (frame : Frame)
    (body rest : List Node) :
    Canonical offset (textOf before ++ construct frame body :: rest) ↔
      (∀ line ∈ before, Kind.openedBy line = none) ∧
        frame.WellCut (linesOfAll body) ∧
        frame.line = offset + before.length + 1 ∧
        Canonical (offset + before.length + frame.headerLines.length + frame.doc.length)
          body ∧
        Canonical (offset + before.length + (construct frame body).lines.length) rest := by
  constructor
  · rintro ⟨wellCut, numbered⟩
    obtain ⟨unopened, frameCut, bodyCut, restCut⟩ :=
      (wellCutAll_textOf_append before frame body rest).mp wellCut
    obtain ⟨line_eq, bodyNumbered, restNumbered⟩ :=
      (numberedAll_textOf_append offset before frame body rest).mp numbered
    exact ⟨unopened, frameCut, line_eq, ⟨bodyCut, bodyNumbered⟩, ⟨restCut, restNumbered⟩⟩
  · rintro ⟨unopened, frameCut, line_eq, ⟨bodyCut, bodyNumbered⟩, ⟨restCut, restNumbered⟩⟩
    exact
      { wellCut := (wellCutAll_textOf_append before frame body rest).mpr
          ⟨unopened, frameCut, bodyCut, restCut⟩
        numbered := (numberedAll_textOf_append offset before frame body rest).mpr
          ⟨line_eq, bodyNumbered, restNumbered⟩ }

theorem canonical_text
    {lines : List Line}
    (nonempty : lines ≠ [])
    (unopened : ∀ line ∈ lines, Kind.openedBy line = none)
    (offset : Nat) :
    Canonical offset [.text lines] where
  wellCut := by simpa [WellCutAll, WellCut, isText] using ⟨nonempty, unopened⟩
  numbered := by simp [NumberedAll, Numbered]

/-- A well-cut sequence is a single text, or text and a construct in front of a
well-cut rest. -/
theorem WellCutAll.text_or_construct
    {nodes : List Node}
    (wellCut : WellCutAll nodes)
    (nonempty : nodes ≠ []) :
    (∃ lines, nodes = [.text lines]) ∨
      ∃ before frame body rest, nodes = textOf before ++ construct frame body :: rest := by
  cases nodes with
  | nil => exact absurd rfl nonempty
  | cons node rest =>
      simp only [WellCutAll] at wellCut
      obtain ⟨nodeWellCut, separated, -⟩ := wellCut
      cases node with
      | construct frame body => exact .inr ⟨[], frame, body, rest, rfl⟩
      | text lines =>
          simp only [WellCut] at nodeWellCut
          obtain ⟨nonemptyLines, -⟩ := nodeWellCut
          cases rest with
          | nil => exact .inl ⟨lines, rfl⟩
          | cons next others =>
              cases next with
              | text more => exact absurd (separated rfl (.text more) rfl) (by simp [isText])
              | construct frame body =>
                  refine .inr ⟨lines, frame, body, others, ?_⟩
                  cases lines with
                  | nil => exact absurd rfl nonemptyLines
                  | cons line more => rfl

end Node

namespace Tree

/-- The trees that a source is read into. -/
structure Canonical (tree : Tree) : Prop where
  /-- There is at least one node. -/
  nonempty : tree.nodes ≠ []
  /-- The nodes are canonical with no line in front. -/
  nodes : Node.Canonical 0 tree.nodes
  /-- A line holds no line feed. -/
  whole : ∀ line ∈ tree.lines, '\n' ∉ line

instance (tree : Tree) : Decidable tree.Canonical :=
  decidable_of_iff
    (tree.nodes ≠ [] ∧ Node.Canonical 0 tree.nodes ∧ ∀ line ∈ tree.lines, '\n' ∉ line)
    ⟨fun ⟨nonempty, nodes, whole⟩ => { nonempty, nodes, whole },
      fun canonical => ⟨canonical.nonempty, canonical.nodes, canonical.whole⟩⟩

end Tree
end FortranDocs
