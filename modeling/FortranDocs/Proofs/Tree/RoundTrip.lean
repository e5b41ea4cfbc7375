import FortranDocs.Proofs.Tree.Reading

/-!
# Reading and writing a tree

A well-cut tree is written as its lines, joined by line feeds.  With the
characterization of successful readings this makes reading and writing inverse to each
other: `Tree.parse_eq_ok_iff` states that a source is read into exactly the canonical
tree that is written as the source.
-/

namespace FortranDocs

namespace Frame

/-- A construct around a body with known text is written as its lines. -/
theorem source_eq_joinLines
    (frame : Frame)
    (body : List Node)
    (bodyEmpty : Node.linesOfAll body = [] ↔ body = [])
    (bodySource :
      Text.joinLines (Node.sourcesOfAll body) = Text.joinLines (Node.linesOfAll body)) :
    (Node.construct frame body).source =
      Text.joinLines (Node.construct frame body).lines := by
  have inside :
      (if body.isEmpty then [] else Text.joinLines (Node.sourcesOfAll body) ++ ['\n']) ++
          frame.closing =
        Text.joinLines (Node.linesOfAll body ++ [frame.closing]) := by
    by_cases noBody : body = []
    · subst noBody
      simp [Node.linesOfAll]
    · have linesNonempty : Node.linesOfAll body ≠ [] := mt bodyEmpty.mp noBody
      rw [if_neg (by simpa using noBody), bodySource,
        Text.joinLines_append linesNonempty (List.cons_ne_nil _ _), Text.joinLines_singleton,
        List.append_assoc, List.singleton_append]
  have hasHeader : frame.headerLines ≠ [] := List.cons_ne_nil _ _
  have behindHeader : frame.doc ++ (Node.linesOfAll body ++ [frame.closing]) ≠ [] := by
    simp
  simp only [Node.source, Node.lines_construct, List.append_assoc, inside]
  rw [Text.joinLines_append hasHeader behindHeader,
    ← Text.flatMap_terminated_append_joinLines frame.doc (by simp), header, docBlock,
    List.cons_append]

end Frame

namespace Node

/-- A first node with known text in front of further nodes. -/
theorem joinLines_sources_cons
    {node : Node}
    {rest : List Node}
    (nodeCut : node.WellCut)
    (restCut : WellCutAll rest)
    (nodeSource : node.source = Text.joinLines node.lines)
    (restSource : Text.joinLines (sourcesOfAll rest) = Text.joinLines (linesOfAll rest)) :
    Text.joinLines (sourcesOfAll (node :: rest)) =
      Text.joinLines (linesOfAll (node :: rest)) := by
  cases rest with
  | nil => simp [sourcesOfAll, linesOfAll, nodeSource]
  | cons next others =>
      have linesNonempty : linesOfAll (next :: others) ≠ [] := by
        simp [linesOfAll_eq_nil_iff restCut]
      have lines_eq : linesOfAll (node :: next :: others) =
          node.lines ++ linesOfAll (next :: others) := by
        rw [linesOfAll]
      rw [sourcesOfAll, Text.joinLines_cons _ (by simp [sourcesOfAll]), restSource, nodeSource,
        lines_eq, Text.joinLines_append (lines_ne_nil nodeCut) linesNonempty]

/-- Well-cut nodes are written as their lines. -/
theorem joinLines_sourcesOfAll
    {nodes : List Node}
    (wellCut : WellCutAll nodes) :
    Text.joinLines (sourcesOfAll nodes) = Text.joinLines (linesOfAll nodes) := by
  induction nodes using inductionAll with
  | nil => rfl
  | text lines rest restHypothesis =>
      simp only [WellCutAll] at wellCut
      obtain ⟨nodeCut, -, restCut⟩ := wellCut
      exact joinLines_sources_cons nodeCut restCut (by simp only [source, Node.lines])
        (restHypothesis restCut)
  | construct frame body rest bodyHypothesis restHypothesis =>
      simp only [WellCutAll] at wellCut
      obtain ⟨nodeCut, -, restCut⟩ := wellCut
      have bodyCut : WellCutAll body := by
        simp only [WellCut] at nodeCut
        exact nodeCut.2
      have nodeSource := frame.source_eq_joinLines body (linesOfAll_eq_nil_iff bodyCut)
        (bodyHypothesis bodyCut)
      exact joinLines_sources_cons nodeCut restCut nodeSource (restHypothesis restCut)

/-- A well-cut node is written as its lines. -/
theorem source_eq_joinLines {node : Node} (wellCut : node.WellCut) :
    node.source = Text.joinLines node.lines := by
  have alone : WellCutAll [node] := by
    simp [WellCutAll, wellCut]
  simpa [sourcesOfAll, linesOfAll] using joinLines_sourcesOfAll alone

end Node

namespace Tree

/-- A tree of well-cut nodes is written as its lines. -/
theorem source_eq_joinLines {tree : Tree} (wellCut : Node.WellCutAll tree.nodes) :
    tree.source = Text.joinLines tree.lines :=
  Node.joinLines_sourcesOfAll wellCut

/-- The lines of a canonical tree are those of its text. -/
theorem Canonical.splitLines_source {tree : Tree} (canonical : tree.Canonical) :
    Text.splitLines tree.source = tree.lines := by
  rw [source_eq_joinLines canonical.nodes.wellCut]
  apply Text.splitLines_joinLines
  · rw [Tree.lines, Ne, Node.linesOfAll_eq_nil_iff canonical.nodes.wellCut]
    exact canonical.nonempty
  · exact canonical.whole

/-- A successful reading, told by the lines of the source. -/
theorem parse_eq_ok_iff_lines {source : Text} {tree : Tree} :
    parse source = .ok tree ↔
      tree.lines = Text.splitLines source ∧ Node.Canonical 0 tree.nodes := by
  have shallow : 0 + (Kind.closedIn (Text.splitLines source)).card ≤ Node.maxDepth := by
    have few := Kind.card_closedIn_le (Text.splitLines source)
    have five : Kind.all.length = 5 := rfl
    simp only [Node.maxDepth]
    omega
  have parsed_iff : Node.parseSome (Text.splitLines source) 0 0 = .ok tree.nodes ↔
      Node.linesOfAll tree.nodes = Text.splitLines source ∧ Node.Canonical 0 tree.nodes :=
    Node.parseSome_eq_ok_iff shallow
  rw [Node.parseSome, if_neg (by simp)] at parsed_iff
  rw [Tree.lines, ← parsed_iff, parse]
  cases Node.parseAll (Text.splitLines source) 0 0 with
  | error error => simp [Except.map]
  | ok nodes =>
      simp only [Except.map, Except.ok.injEq]
      constructor
      · rintro rfl
        rfl
      · rintro rfl
        rfl

/-- A source is read into exactly the canonical tree that is written as the source. -/
theorem parse_eq_ok_iff {source : Text} {tree : Tree} :
    parse source = .ok tree ↔ tree.Canonical ∧ tree.source = source := by
  rw [parse_eq_ok_iff_lines]
  constructor
  · rintro ⟨lines_eq, canonical⟩
    refine ⟨⟨?_, canonical, ?_⟩, ?_⟩
    · intro noNodes
      have noLines := (Node.linesOfAll_eq_nil_iff canonical.wellCut).mpr noNodes
      exact Text.splitLines_ne_nil source (lines_eq ▸ noLines)
    · intro line present
      rw [lines_eq] at present
      exact Text.lineFeed_not_mem_of_mem_splitLines present
    · rw [source_eq_joinLines canonical.wellCut, lines_eq, Text.joinLines_splitLines]
  · rintro ⟨canonical, rfl⟩
    exact ⟨canonical.splitLines_source.symm, canonical.nodes⟩

/-- The text of a construct in a source has the lines of the construct. -/
theorem splitLines_source_of_mem
    {source : Text}
    {tree : Tree}
    {found : Nat × Construct}
    (parsed : parse source = .ok tree)
    (present : found ∈ tree.constructs) :
    Text.splitLines found.2.source = found.2.lines := by
  obtain ⟨canonical, -⟩ := parse_eq_ok_iff.mp parsed
  have nodeCut := Node.wellCut_of_mem_constructsOfAll canonical.nodes.wellCut present
  have inTree : found.2.lines <:+: tree.lines :=
    Node.lines_isInfix_of_mem_constructsOfAll present
  rw [Construct.source, Node.source_eq_joinLines nodeCut]
  apply Text.splitLines_joinLines (Node.lines_ne_nil nodeCut)
  intro line inConstruct
  exact canonical.whole line (inTree.subset inConstruct)

/-- A module with nearly everything that is hard to cut: both line endings, a header with
a comment in it, documentation, a header that runs up to its closing line, blank lines at
the edges of a body, and an empty last line. -/
def nestedSource : Text :=
  ("! Notes\r\nmodule m &\r\n  ! still its header\r\n  ! Docs.\n\n  type t &\n  end type\n" ++
    "\n  contains\n  subroutine s\n  end subroutine s\nend module m\r\n").toList

/-- What the module is read into. -/
def nestedTree : Tree where
  nodes :=
    [.text ["! Notes\r".toList],
      .construct
        { kind := .module
          line := 2
          opener := "module m &\r".toList
          continuation := ["  ! still its header\r".toList]
          doc := ["  ! Docs.".toList]
          closing := "end module m\r".toList
          indent := 2 }
        [.text [[]],
          .construct
            { kind := .type
              line := 6
              opener := "  type t &".toList
              continuation := []
              doc := []
              closing := "  end type".toList
              indent := 0 }
            [],
          .text [[], "  contains".toList],
          .construct
            { kind := .subroutine
              line := 10
              opener := "  subroutine s".toList
              continuation := []
              doc := []
              closing := "  end subroutine s".toList
              indent := 0 }
            []],
      .text [[]]]

theorem parse_nestedSource : parse nestedSource = .ok nestedTree := by
  apply parse_eq_ok_iff.mpr
  decide +kernel

/-- A tree is written as the source that it was read from. -/
theorem source_of_parse
    {source : Text}
    {tree : Tree}
    (parsed : parse source = .ok tree) :
    tree.source = source :=
  (parse_eq_ok_iff.mp parsed).2

theorem source_nestedTree :
    parse nestedSource = .ok nestedTree ∧ nestedTree.source = nestedSource :=
  ⟨parse_nestedSource, source_of_parse parse_nestedSource⟩

/-- The canonical trees are exactly those that some source is read into, and each of them
is read back from its own text. -/
theorem canonical_iff_exists_parse (tree : Tree) :
    (tree.Canonical ↔ ∃ source, parse source = .ok tree) ∧
      (tree.Canonical → parse tree.source = .ok tree) := by
  have readBack : tree.Canonical → parse tree.source = .ok tree := by
    intro canonical
    exact parse_eq_ok_iff.mpr ⟨canonical, rfl⟩
  refine ⟨⟨?_, ?_⟩, readBack⟩
  · intro canonical
    exact ⟨tree.source, readBack canonical⟩
  · rintro ⟨source, parsed⟩
    exact (parse_eq_ok_iff.mp parsed).1

theorem canonical_nestedTree :
    nestedTree.Canonical ∧ parse nestedTree.source = .ok nestedTree :=
  have canonical := (canonical_iff_exists_parse nestedTree).1.mpr
    ⟨nestedSource, parse_nestedSource⟩
  ⟨canonical, (canonical_iff_exists_parse nestedTree).2 canonical⟩

end Tree
end FortranDocs
