import FortranDocs.Proofs.Tree.Isolation
import FortranDocs.Proofs.Tree.Unended

/-!
# How deep constructs are nested

A construct ends at the first line that closes its kind, so no line of its body closes this
kind, and a construct of the same kind inside would have no closing line.  The constructs around
any place of a source are therefore of different kinds, and there are at most five of them:
`Tree.kinds_nodup_of_parse`.
-/

namespace FortranDocs

theorem Kind.mem_all (kind : Kind) : kind ∈ all := by
  cases kind <;> decide

/-- There are no more different kinds than there are kinds. -/
theorem Kind.length_le_of_nodup {kinds : List Kind} (different : kinds.Nodup) :
    kinds.length ≤ all.length :=
  (List.subperm_of_subset different fun kind _ => kind.mem_all).length_le

namespace Node

/-- The constructs through which a path of node indexes leads, each in the body of the one in
front of it. -/
def constructsAlong : (path : List Nat) -> List Node -> List Construct
  | [], _ => []
  | index :: path, nodes =>
      match nodes[index]? with
      | some (.construct frame body) =>
          { toFrame := frame, body } :: constructsAlong path body
      | _ => []

theorem constructsAlong_cons
    {index : Nat}
    {nodes body : List Node}
    {frame : Frame}
    (standsAt : nodes[index]? = some (.construct frame body))
    (path : List Nat) :
    constructsAlong (index :: path) nodes =
      { toFrame := frame, body } :: constructsAlong path body := by
  simp only [constructsAlong, standsAt]

/-- A path to a construct leads through as many constructs as it has indexes. -/
theorem length_constructsAlong
    {path : List Nat}
    {nodes : List Node}
    {found : Construct}
    (foundAt : constructAt path nodes = some found) :
    (constructsAlong path nodes).length = path.length := by
  induction foundAt using constructAt_induction with
  | here index nodes foundAt standsAt =>
      rw [constructsAlong_cons standsAt]
      rfl
  | inside index next path nodes frame body foundAt foundInside standsAt
      inductionHypothesis =>
      rw [constructsAlong_cons standsAt, List.length_cons, List.length_cons,
        inductionHypothesis]

theorem mem_constructsOfAll_of_mem_constructsAlong
    {path : List Nat}
    {nodes : List Node}
    {found : Construct}
    (along : found ∈ constructsAlong path nodes)
    (depth : Nat) :
    ∃ deeper, (deeper, found) ∈ constructsOfAll depth nodes := by
  induction path generalizing nodes depth with
  | nil => cases along
  | cons index path inductionHypothesis =>
      cases standsAt : nodes[index]? with
      | none => simp [constructsAlong, standsAt] at along
      | some node =>
          have among := List.mem_of_getElem? standsAt
          cases node with
          | text lines => simp [constructsAlong, standsAt] at along
          | construct frame body =>
              rw [constructsAlong_cons standsAt] at along
              rcases List.mem_cons.mp along with rfl | inBody
              · exact ⟨depth, mem_constructsOfAll_of_mem among List.mem_cons_self⟩
              · obtain ⟨deeper, member⟩ := inductionHypothesis inBody (depth + 1)
                exact ⟨deeper, mem_constructsOfAll_of_mem among
                  (List.mem_cons_of_mem _ member)⟩

/-- A construct closes its kind among the lines of the nodes around it. -/
theorem exists_closes_of_mem_constructsOfAll
    {depth : Nat}
    {nodes : List Node}
    {found : Nat × Construct}
    (wellCut : WellCutAll nodes)
    (present : found ∈ constructsOfAll depth nodes) :
    ∃ line ∈ linesOfAll nodes, found.2.kind.closes line = true := by
  have nodeCut := wellCut_of_mem_constructsOfAll wellCut present
  simp only [Construct.toNode, WellCut] at nodeCut
  refine ⟨found.2.closing, ?_, nodeCut.1.closed⟩
  apply (lines_isInfix_of_mem_constructsOfAll present).subset
  simp [Construct.lines, Construct.toNode, lines_construct]

/-- No construct in the body of a well-cut construct has the kind of this construct. -/
theorem kind_ne_of_mem_body
    (construct : Construct)
    {depth : Nat}
    {found : Nat × Construct}
    (wellCut : construct.toNode.WellCut)
    (present : found ∈ constructsOfAll depth construct.body) :
    found.2.kind ≠ construct.kind := by
  simp only [Construct.toNode, WellCut] at wellCut
  obtain ⟨frameCut, bodyCut⟩ := wellCut
  intro sameKind
  obtain ⟨line, inBody, closes⟩ := exists_closes_of_mem_constructsOfAll bodyCut present
  rw [sameKind, frameCut.unclosed line (List.mem_append_right _ inBody)] at closes
  cases closes

/-- The constructs on a path through well-cut nodes are of different kinds. -/
theorem nodup_kinds_constructsAlong
    {nodes : List Node}
    (wellCut : WellCutAll nodes)
    (path : List Nat) :
    ((constructsAlong path nodes).map fun construct => construct.kind).Nodup := by
  induction path generalizing nodes with
  | nil => exact List.nodup_nil
  | cons index path inductionHypothesis =>
      cases standsAt : nodes[index]? with
      | none => simp [constructsAlong, standsAt]
      | some node =>
          cases node with
          | text lines => simp [constructsAlong, standsAt]
          | construct frame body =>
              have nodeCut := wellCut.of_mem (List.mem_of_getElem? standsAt)
              have bodyCut : WellCutAll body := by
                simp only [WellCut] at nodeCut
                exact nodeCut.2
              rw [constructsAlong_cons standsAt, List.map_cons, List.nodup_cons]
              refine ⟨?_, inductionHypothesis bodyCut⟩
              intro again
              obtain ⟨found, along, sameKind⟩ := List.mem_map.mp again
              obtain ⟨deeper, member⟩ := mem_constructsOfAll_of_mem_constructsAlong along 0
              exact kind_ne_of_mem_body { toFrame := frame, body } nodeCut member sameKind

end Node

namespace Tree

/-- The constructs through which a path of node indexes leads, from the outermost in. -/
def constructsAlong (path : List Nat) (tree : Tree) : List Construct :=
  Node.constructsAlong path tree.nodes

/-- No source is nested too deep to be read.  The constructs on any path from the root of a tree
are of different kinds, so that none is deeper than four others, and none has another of its
kind inside it. -/
theorem kinds_nodup_of_parse (source : Text) :
    (∀ limit, parse source ≠ .error (.nestingTooDeep limit)) ∧
      ∀ tree, parse source = .ok tree →
        (∀ path,
          ((tree.constructsAlong path).map fun construct => construct.kind).Nodup) ∧
        ∀ depth construct, (depth, construct) ∈ tree.constructs →
          depth ≤ 4 ∧
            ∀ deeper inner,
              (deeper, inner) ∈ Node.constructsOfAll (depth + 1) construct.body →
                inner.kind ≠ construct.kind := by
  constructor
  · intro limit failed
    obtain ⟨kind, index, -, error_eq⟩ := parse_eq_error_iff.mp failed
    cases error_eq
  · intro tree parsed
    have wellCut := (parse_eq_ok_iff_lines.mp parsed).2.wellCut
    have different (path : List Nat) :
        ((tree.constructsAlong path).map fun construct => construct.kind).Nodup :=
      Node.nodup_kinds_constructsAlong wellCut path
    refine ⟨different, ?_⟩
    intro depth construct present
    constructor
    · obtain ⟨path, deep, foundAt⟩ := mem_constructs_iff.mp present
      have few := Kind.length_le_of_nodup (different path)
      have five : Kind.all.length = 5 := rfl
      rw [List.length_map, constructsAlong, Node.length_constructsAlong foundAt] at few
      omega
    · intro deeper inner inside
      have constructCut := Node.wellCut_of_mem_constructsOfAll wellCut present
      exact Node.kind_ne_of_mem_body construct constructCut inside

/-- A source with a block of every kind, each inside the one in front of it. -/
def deepSource : Text :=
  ("program p\nmodule m\nsubroutine s\nfunction f\ntype t\nend type\nend function\n" ++
    "end subroutine\nend module\nend program\n").toList

/-- Four levels below the outermost construct are reached, with every kind on the way. -/
theorem kinds_nodup_of_parse_deepSource :
    ∃ tree, parse deepSource = .ok tree ∧
      tree.constructs.map Prod.fst = [0, 1, 2, 3, 4] ∧
      ((tree.constructsAlong [0, 0, 0, 0, 0]).map fun construct => construct.kind) =
        [.program, .module, .subroutine, .function, .type] ∧
      (∀ path, ((tree.constructsAlong path).map fun construct => construct.kind).Nodup) ∧
      ∀ found ∈ tree.constructs, found.1 ≤ 4 := by
  have computed :
      (parse deepSource).map (fun tree =>
          (tree.constructs.map Prod.fst,
            (tree.constructsAlong [0, 0, 0, 0, 0]).map fun construct => construct.kind)) =
        .ok ([0, 1, 2, 3, 4], [.program, .module, .subroutine, .function, .type]) := by
    decide +kernel
  cases parsed : parse deepSource with
  | error error =>
      rw [parsed] at computed
      cases computed
  | ok tree =>
      rw [parsed, Except.map, Except.ok.injEq, Prod.mk.injEq] at computed
      obtain ⟨different, bounded⟩ := (kinds_nodup_of_parse deepSource).2 tree parsed
      exact ⟨tree, rfl, computed.1, computed.2, different,
        fun found present => (bounded found.1 found.2 present).1⟩

end Tree
end FortranDocs
