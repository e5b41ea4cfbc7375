import FortranDocs.Proofs.Tree.Isolation
import FortranDocs.Proofs.Tree.Outline
import Mathlib.Order.Interval.Finset.Nat

/-!
# The lines that constructs take

Every construct that is read from a source takes a run of its lines, from the one by which it is
numbered to its closing line.  `Tree.extents_of_parse` states that its text and its signature
are those of these lines, that the numbers increase from construct to construct, and that two of
these runs lie apart unless one construct is inside the other.
-/

namespace FortranDocs

namespace Construct

/-- The numbers of the lines that a construct takes. -/
def extent (construct : Construct) : Finset Nat :=
  Finset.Icc construct.line construct.closingLine

/-- Two constructs of which one ends above the other take no line in common. -/
theorem disjoint_extent_of_lt
    {upper lower : Construct}
    (above : upper.closingLine < lower.line) :
    Disjoint upper.extent lower.extent := by
  rw [Finset.disjoint_left]
  intro number inUpper inLower
  rw [extent, Finset.mem_Icc] at inUpper inLower
  omega

theorem length_lines (construct : Construct) :
    construct.lines.length =
      construct.headerLines.length + construct.doc.length +
        (Node.linesOfAll construct.body).length + 1 := by
  simp [lines, toNode, Node.lines_construct, Nat.add_assoc]

theorem closingLine_eq (construct : Construct) :
    construct.closingLine =
      construct.line + construct.headerLines.length + construct.doc.length +
        (Node.linesOfAll construct.body).length := by
  rw [closingLine, length_lines]
  omega

/-- The header and the closing line are different lines. -/
theorem line_lt_closingLine (construct : Construct) :
    construct.line < construct.closingLine := by
  rw [closingLine_eq, Frame.headerLines, List.length_cons]
  omega

end Construct

namespace Node

variable {nodes : List Node} {offset : Nat}

/-! ## Numbers of nodes -/

theorem numberedAll_append (offset : Nat) (front back : List Node) :
    NumberedAll offset (front ++ back) ↔
      NumberedAll offset front ∧ NumberedAll (offset + (linesOfAll front).length) back := by
  induction front generalizing offset with
  | nil => simp [NumberedAll, linesOfAll]
  | cons node rest inductionHypothesis =>
      simp only [List.cons_append, NumberedAll, inductionHypothesis, linesOfAll,
        List.length_append, and_assoc, Nat.add_assoc]

/-- A construct among numbered nodes takes lines of these nodes. -/
theorem line_bounds
    {depth innerDepth : Nat}
    {construct : Construct}
    (numbered : NumberedAll offset nodes)
    (present : (innerDepth, construct) ∈ constructsOfAll depth nodes) :
    offset < construct.line ∧
      construct.closingLine ≤ offset + (linesOfAll nodes).length := by
  obtain ⟨before, after, lines_eq, line_eq⟩ := exists_lines_around numbered present
  rw [Construct.closingLine, lines_eq, line_eq]
  simp only [List.length_append]
  omega

/-- The body of a construct among numbered nodes is numbered inside the construct. -/
theorem exists_numberedAll_body
    {depth innerDepth : Nat}
    {construct : Construct}
    (numbered : NumberedAll offset nodes)
    (present : (innerDepth, construct) ∈ constructsOfAll depth nodes) :
    ∃ start, NumberedAll start construct.body ∧ construct.line ≤ start ∧
      start + (linesOfAll construct.body).length < construct.closingLine := by
  induction present using mem_constructsOfAll_induction generalizing offset with
  | first rest present =>
      simp only [NumberedAll, Construct.toNode, Numbered] at numbered
      obtain ⟨⟨line_eq, bodyNumbered⟩, -⟩ := numbered
      refine ⟨_, bodyNumbered, ?_, ?_⟩
      · simp only [line_eq, Frame.headerLines, List.length_cons]
        omega
      · simp only [Construct.closingLine_eq, line_eq]
        omega
  | inside depth frame body rest present inBody inductionHypothesis =>
      simp only [NumberedAll, Numbered] at numbered
      exact inductionHypothesis numbered.1.2
  | behind depth node rest present inRest inductionHypothesis =>
      simp only [NumberedAll] at numbered
      exact inductionHypothesis numbered.2

/-- Constructs are numbered in the order in which they begin. -/
theorem pairwise_line_constructsOfAll
    (numbered : NumberedAll offset nodes)
    (depth : Nat) :
    (constructsOfAll depth nodes).Pairwise fun left right => left.2.line < right.2.line := by
  induction nodes using inductionAll generalizing offset depth with
  | nil => simp [constructsOfAll]
  | text lines rest restHypothesis =>
      simp only [NumberedAll] at numbered
      simp only [constructsOfAll, constructs, List.nil_append]
      exact restHypothesis numbered.2 depth
  | construct frame body rest bodyHypothesis restHypothesis =>
      simp only [NumberedAll, Numbered] at numbered
      obtain ⟨⟨line_eq, bodyNumbered⟩, restNumbered⟩ := numbered
      have header_eq : frame.headerLines.length = frame.continuation.length + 1 := rfl
      have length_eq := Construct.length_lines { toFrame := frame, body }
      simp only [Construct.lines, Construct.toNode] at length_eq
      simp only [constructsOfAll, constructs, List.cons_append, List.pairwise_cons,
        List.pairwise_append, List.mem_append]
      refine ⟨?_, bodyHypothesis bodyNumbered _, restHypothesis restNumbered _, ?_⟩
      · rintro found (inBody | inRest)
        · have below := (line_bounds bodyNumbered inBody).1
          omega
        · have below := (line_bounds restNumbered inRest).1
          omega
      · intro inner inBody later inRest
        have above := (line_bounds bodyNumbered inBody).2
        have begins := inner.2.line_lt_closingLine
        have below := (line_bounds restNumbered inRest).1
        omega

/-! ## Numbers along paths -/

/-- A construct on a path takes lines of the node at which the path begins. -/
theorem line_bounds_of_constructAt
    {index : Nat}
    {path : List Nat}
    {found : Construct}
    (numbered : NumberedAll offset nodes)
    (foundAt : constructAt (index :: path) nodes = some found) :
    offset + (linesOfAll (nodes.take index)).length < found.line ∧
      found.closingLine ≤ offset + (linesOfAll (nodes.take (index + 1))).length := by
  cases standsAt : nodes[index]? with
  | none => simp [constructAt, standsAt] at foundAt
  | some node =>
      have taken : nodes.take (index + 1) = nodes.take index ++ [node] := by
        rw [List.take_add_one, standsAt]
        rfl
      have alone : constructAt (0 :: path) [node] = some found := by
        rw [← foundAt]
        simp [constructAt, standsAt]
      rw [← List.take_append_drop (index + 1) nodes, numberedAll_append, taken,
        numberedAll_append] at numbered
      have bounds := line_bounds numbered.1.2 (mem_constructsOfAll_of_constructAt alone 0)
      rw [taken, linesOfAll_append, List.length_append, ← Nat.add_assoc]
      exact bounds

/-- Constructs at paths that begin at different nodes take lines one behind the other. -/
theorem closingLine_lt_of_index_lt
    {index later : Nat}
    {path other : List Nat}
    {found behind : Construct}
    (numbered : NumberedAll offset nodes)
    (foundAt : constructAt (index :: path) nodes = some found)
    (behindAt : constructAt (later :: other) nodes = some behind)
    (before : index < later) :
    found.closingLine < behind.line := by
  have above := (line_bounds_of_constructAt numbered foundAt).2
  have below := (line_bounds_of_constructAt numbered behindAt).1
  have between : (linesOfAll (nodes.take (index + 1))).length ≤
      (linesOfAll (nodes.take later)).length := by
    obtain ⟨rest, taken⟩ := List.take_prefix_take_left (l := nodes) before
    rw [← taken, linesOfAll_append, List.length_append]
    exact Nat.le_add_right _ _
  omega

/-- Constructs of which neither is inside the other take no line in common. -/
theorem disjoint_extent
    {path other : List Nat}
    {found otherFound : Construct}
    (numbered : NumberedAll offset nodes)
    (foundAt : constructAt path nodes = some found)
    (otherAt : constructAt other nodes = some otherFound)
    (apart : ¬ path <+: other)
    (otherApart : ¬ other <+: path) :
    Disjoint found.extent otherFound.extent := by
  -- The paths part at some node index; up to there both lead into the same bodies.
  induction path generalizing offset nodes other with
  | nil => exact absurd List.nil_prefix apart
  | cons index path inductionHypothesis =>
      cases other with
      | nil => exact absurd List.nil_prefix otherApart
      | cons later others =>
          rcases Nat.lt_trichotomy index later with before | rfl | behind
          · exact Construct.disjoint_extent_of_lt
              (closingLine_lt_of_index_lt numbered foundAt otherAt before)
          · rw [List.cons_prefix_cons, not_and] at apart otherApart
            obtain ⟨frame, body, standsAt⟩ := exists_of_constructAt_cons foundAt
            have outerAt := constructAt_singleton standsAt
            obtain ⟨start, bodyNumbered, -, -⟩ :=
              exists_numberedAll_body numbered (mem_constructsOfAll_of_constructAt outerAt 0)
            have inside : path ≠ [] := by
              rintro rfl
              exact apart rfl List.nil_prefix
            have otherInside : others ≠ [] := by
              rintro rfl
              exact otherApart rfl List.nil_prefix
            have foundBelow := constructAt_append outerAt inside
            have otherBelow := constructAt_append outerAt otherInside
            exact inductionHypothesis bodyNumbered (foundBelow.symm.trans foundAt)
              (otherBelow.symm.trans otherAt) (apart rfl) (otherApart rfl)
          · exact (Construct.disjoint_extent_of_lt
              (closingLine_lt_of_index_lt numbered otherAt foundAt behind)).symm

/-- A construct inside another takes lines between the first and the last of the other. -/
theorem extent_subset_Ioo
    {path further : List Nat}
    {outer inner : Construct}
    (numbered : NumberedAll offset nodes)
    (outerAt : constructAt path nodes = some outer)
    (innerAt : constructAt (path ++ further) nodes = some inner)
    (below : further ≠ []) :
    inner.extent ⊆ Finset.Ioo outer.line outer.closingLine := by
  obtain ⟨start, bodyNumbered, begins, ends⟩ :=
    exists_numberedAll_body numbered (mem_constructsOfAll_of_constructAt outerAt 0)
  have insideBody := (constructAt_append outerAt below).symm.trans innerAt
  obtain ⟨first, last⟩ :=
    line_bounds bodyNumbered (mem_constructsOfAll_of_constructAt insideBody 0)
  intro number inInner
  rw [Construct.extent, Finset.mem_Icc] at inInner
  rw [Finset.mem_Ioo]
  omega

end Node

namespace Tree

/-- The text and the signature of a construct are those of the lines of the source that it
takes.  Later constructs begin at later lines.  A construct inside another takes lines between
the first and the last of the other, and two constructs that are not one inside the other take
no line in common. -/
theorem extents_of_parse
    {source : Text}
    {tree : Tree}
    (parsed : parse source = .ok tree) :
    (∀ depth construct, (depth, construct) ∈ tree.constructs →
      let count := (Text.splitLines construct.source).length
      1 ≤ construct.line ∧
        construct.closingLine + 1 = construct.line + count ∧
        construct.closingLine ≤ (Text.splitLines source).length ∧
        construct.source =
          Text.joinLines (((Text.splitLines source).drop (construct.line - 1)).take count) ∧
        (Text.splitLines source)[construct.line - 1]?.map Text.trim =
          some construct.signature) ∧
    (tree.constructs.map fun (_, construct) => construct.line).Pairwise (· < ·) ∧
    ∀ path other construct found,
      tree.constructAt path = some construct →
        tree.constructAt other = some found →
          (¬ path <+: other → ¬ other <+: path → Disjoint construct.extent found.extent) ∧
          (path <+: other → path ≠ other →
            found.extent ⊆ Finset.Ioo construct.line construct.closingLine) := by
  obtain ⟨lines_eq, canonical⟩ := parse_eq_ok_iff_lines.mp parsed
  refine ⟨?_, ?_, ?_⟩
  · intro depth construct present
    have count_eq := splitLines_source_of_mem parsed present
    obtain ⟨before, after, around, line_eq⟩ :=
      Node.exists_lines_around canonical.numbered present
    rw [← lines] at around
    have length_eq := congrArg List.length around
    have ends := construct.line_lt_closingLine
    simp only [List.length_append, Nat.zero_add] at length_eq line_eq
    have begins : construct.line - 1 = before.length := by
      omega
    have nodeCut := Node.wellCut_of_mem_constructsOfAll canonical.wellCut present
    have behind : tree.lines.drop (construct.line - 1) = construct.lines ++ after := by
      rw [around, begins, List.append_assoc, List.drop_left]
    simp only [count_eq]
    refine ⟨?_, ?_, ?_, ?_, ?_⟩
    · omega
    · rw [Construct.closingLine] at ends ⊢
      omega
    · rw [← lines_eq, Construct.closingLine]
      omega
    · rw [← lines_eq, behind, List.take_left, Construct.source, Node.source_eq_joinLines nodeCut]
      rfl
    · rw [← lines_eq, around, begins, Construct.lines, Construct.toNode, Node.lines_construct]
      simp [Frame.headerLines, Frame.signature]
  · rw [List.pairwise_map]
    exact Node.pairwise_line_constructsOfAll canonical.numbered 0
  · intro path other construct found foundAt otherAt
    constructor
    · exact Node.disjoint_extent canonical.numbered foundAt otherAt
    · rintro ⟨further, rfl⟩ different
      apply Node.extent_subset_Ioo canonical.numbered foundAt otherAt
      rintro rfl
      exact different (List.append_nil path).symm

/-- In the nested module, which begins at line two, the type and the procedure take lines six and
seven and lines ten and eleven. -/
theorem extents_of_parse_nestedSource :
    parse nestedSource = .ok nestedTree ∧
      (nestedTree.constructs.map fun (_, construct) => construct.line).Pairwise (· < ·) ∧
      ∃ outer type procedure,
        nestedTree.constructAt [1] = some outer ∧
        nestedTree.constructAt [1, 1] = some type ∧
        nestedTree.constructAt [1, 3] = some procedure ∧
        type.extent = {6, 7} ∧ procedure.extent = {10, 11} ∧
        Disjoint type.extent procedure.extent ∧
        procedure.extent ⊆ Finset.Ioo outer.line outer.closingLine ∧
        procedure.source =
          Text.joinLines
            (((Text.splitLines nestedSource).drop (procedure.line - 1)).take
              (Text.splitLines procedure.source).length) := by
  obtain ⟨texts, increasing, places⟩ := extents_of_parse parse_nestedSource
  obtain ⟨outer, outerAt⟩ : ∃ outer, nestedTree.constructAt [1] = some outer := ⟨_, rfl⟩
  obtain ⟨type, typeAt⟩ : ∃ type, nestedTree.constructAt [1, 1] = some type := ⟨_, rfl⟩
  obtain ⟨procedure, procedureAt⟩ : ∃ procedure, nestedTree.constructAt [1, 3] = some procedure :=
    ⟨_, rfl⟩
  have present := mem_constructs_iff.mpr ⟨[1, 3], rfl, procedureAt⟩
  refine ⟨parse_nestedSource, increasing, outer, type, procedure, outerAt, typeAt, procedureAt,
    ?_, ?_, (places _ _ _ _ typeAt procedureAt).1 (by decide) (by decide),
    (places _ _ _ _ outerAt procedureAt).2 (by decide) (by decide),
    (texts _ _ present).2.2.2.1⟩
  · cases typeAt
    decide
  · cases procedureAt
    decide

end Tree
end FortranDocs
