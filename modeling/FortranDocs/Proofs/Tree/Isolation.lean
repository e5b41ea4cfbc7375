import FortranDocs.Proofs.Tree.Frames
import FortranDocs.Proofs.Tree.RoundTrip

/-!
# Writing into one construct

A construct has a place in a tree, the path of node indexes that leads to it, and its
documentation is one segment of the text of the tree.  `Tree.writeAlong_isolated` states
that writing there exchanges this segment and nothing else: the text around it is the same
for every documentation, and of the other constructs only the bodies that hold the place
change.
-/

namespace FortranDocs

namespace Text

/-- The text around one of the lines does not depend on the line. -/
theorem exists_joinLines_set
    {lines : List Line}
    {index : Nat}
    (inside : index < lines.length) :
    ∃ front back, ∀ line, joinLines (lines.set index line) = front ++ line ++ back := by
  induction lines generalizing index with
  | nil => exact absurd inside (Nat.not_lt_zero index)
  | cons first rest inductionHypothesis =>
      cases index with
      | zero =>
          by_cases alone : rest = []
          · exact ⟨[], [], fun line => by simp [alone]⟩
          · refine ⟨[], '\n' :: joinLines rest, ?_⟩
            intro line
            rw [List.set_cons_zero, joinLines_cons line alone, List.nil_append]
      | succ index =>
          obtain ⟨front, back, joined⟩ := inductionHypothesis (Nat.lt_of_succ_lt_succ inside)
          refine ⟨first ++ '\n' :: front, back, ?_⟩
          intro line
          have behindFirst : rest.set index line ≠ [] := by
            rw [Ne, List.set_eq_nil_iff]
            rintro rfl
            exact absurd inside (by simp)
          rw [List.set_cons_succ, joinLines_cons first behindFirst, joined line]
          simp only [List.append_assoc, List.cons_append]

end Text

/-- The construct with documentation written into it. -/
def Construct.writeDoc (doc : Text) (construct : Construct) : Construct :=
  { construct with toFrame := construct.toFrame.writeDoc doc }

namespace Node

/-- The construct at a path of node indexes, of which each leads into the body of the
construct found so far. -/
def constructAt : (path : List Nat) -> List Node -> Option Construct
  | [], _ => none
  | index :: path, nodes =>
      match nodes[index]? with
      | some (.construct frame body) =>
          if path.isEmpty then some { toFrame := frame, body } else constructAt path body
      | _ => none

section Places

variable
  {index next : Nat}
  {path : List Nat}
  {nodes body : List Node}
  {frame : Frame}

theorem constructAt_singleton (found : nodes[index]? = some (.construct frame body)) :
    constructAt [index] nodes = some { toFrame := frame, body } := by
  simp [constructAt, found]

theorem constructAt_cons_cons (found : nodes[index]? = some (.construct frame body)) :
    constructAt (index :: next :: path) nodes = constructAt (next :: path) body := by
  simp [constructAt, found]

theorem writeAlong_singleton
    (doc : Text)
    (found : nodes[index]? = some (.construct frame body)) :
    writeAlong doc [index] nodes =
      some (nodes.set index (.construct (frame.writeDoc doc) body),
        { toFrame := frame.writeDoc doc, body }) := by
  simp [writeAlong, found]

theorem writeAlong_cons_cons
    (doc : Text)
    (found : nodes[index]? = some (.construct frame body)) :
    writeAlong doc (index :: next :: path) nodes =
      (writeAlong doc (next :: path) body).map fun (body, written) =>
        (nodes.set index (.construct frame body), written) := by
  simp [writeAlong, found]

end Places

/-- Induction on the path to a construct: it stands among the nodes, or in the body of one
of them. -/
@[elab_as_elim]
theorem constructAt_induction
    {found : Construct}
    {motive : (path : List Nat) -> (nodes : List Node) ->
      constructAt path nodes = some found -> Prop}
    (here :
      ∀ index nodes foundAt, nodes[index]? = some found.toNode →
        motive [index] nodes foundAt)
    (inside :
      ∀ index next path nodes frame body foundAt foundInside,
        nodes[index]? = some (.construct frame body) →
          motive (next :: path) body foundInside →
            motive (index :: next :: path) nodes foundAt)
    {path : List Nat}
    {nodes : List Node}
    (foundAt : constructAt path nodes = some found) :
    motive path nodes foundAt := by
  induction path generalizing nodes with
  | nil => simp [constructAt] at foundAt
  | cons index path inductionHypothesis =>
      cases standsAt : nodes[index]? with
      | none => simp [constructAt, standsAt] at foundAt
      | some node =>
          cases node with
          | text lines => simp [constructAt, standsAt] at foundAt
          | construct frame body =>
              cases path with
              | nil =>
                  obtain rfl : { toFrame := frame, body } = found :=
                    Option.some.inj ((constructAt_singleton standsAt).symm.trans foundAt)
                  exact here index nodes foundAt standsAt
              | cons next path =>
                  have foundInside := (constructAt_cons_cons standsAt).symm.trans foundAt
                  exact inside index next path nodes frame body foundAt foundInside standsAt
                    (inductionHypothesis foundInside)

theorem exists_of_constructAt_cons
    {index : Nat}
    {path : List Nat}
    {nodes : List Node}
    {found : Construct}
    (foundAt : constructAt (index :: path) nodes = some found) :
    ∃ frame body, nodes[index]? = some (.construct frame body) := by
  cases standsAt : nodes[index]? with
  | none => simp [constructAt, standsAt] at foundAt
  | some node =>
      cases node with
      | text lines => simp [constructAt, standsAt] at foundAt
      | construct frame body => exact ⟨frame, body, rfl⟩

/-- A path inside the body of a construct leads on from the path to the construct. -/
theorem constructAt_append
    {path further : List Nat}
    {nodes : List Node}
    {found : Construct}
    (foundAt : constructAt path nodes = some found)
    (below : further ≠ []) :
    constructAt (path ++ further) nodes = constructAt further found.body := by
  induction foundAt using constructAt_induction with
  | here index nodes foundAt standsAt =>
      cases further with
      | nil => exact absurd rfl below
      | cons next others => exact constructAt_cons_cons standsAt
  | inside index next path nodes frame body foundAt foundInside standsAt
      inductionHypothesis =>
      rw [List.cons_append, List.cons_append, constructAt_cons_cons standsAt,
        ← List.cons_append, inductionHypothesis]

theorem ne_nil_of_constructAt
    {path : List Nat}
    {nodes : List Node}
    {found : Construct}
    (foundAt : constructAt path nodes = some found) :
    nodes ≠ [] := by
  rintro rfl
  cases path with
  | nil => simp [constructAt] at foundAt
  | cons index path => simp [constructAt] at foundAt

/-! ## The constructs at paths -/

theorem exists_constructAt_cons
    {path : List Nat}
    {rest : List Node}
    {found : Construct}
    (node : Node)
    (foundAt : constructAt path rest = some found) :
    ∃ shifted, shifted.length = path.length ∧
      constructAt shifted (node :: rest) = some found := by
  cases path with
  | nil => simp [constructAt] at foundAt
  | cons index path => exact ⟨(index + 1) :: path, rfl, foundAt⟩

theorem exists_constructAt_of_mem
    {depth : Nat}
    {nodes : List Node}
    {place : Nat × Construct}
    (member : place ∈ constructsOfAll depth nodes) :
    ∃ path, depth + path.length = place.1 + 1 ∧ constructAt path nodes = some place.2 := by
  induction member using mem_constructsOfAll_induction with
  | first rest member => exact ⟨[0], rfl, rfl⟩
  | inside depth frame body rest member inBody inductionHypothesis =>
      obtain ⟨path, deep, foundAt⟩ := inductionHypothesis
      cases path with
      | nil => simp [constructAt] at foundAt
      | cons next path =>
          refine ⟨0 :: next :: path, ?_, foundAt⟩
          simp only [List.length_cons] at deep ⊢
          omega
  | behind depth node rest member inRest inductionHypothesis =>
      obtain ⟨path, deep, foundAt⟩ := inductionHypothesis
      obtain ⟨shifted, sameLength, foundAt⟩ := exists_constructAt_cons node foundAt
      exact ⟨shifted, sameLength ▸ deep, foundAt⟩

theorem mem_constructsOfAll_of_mem
    {depth : Nat}
    {nodes : List Node}
    {node : Node}
    {place : Nat × Construct}
    (among : node ∈ nodes)
    (member : place ∈ node.constructs depth) :
    place ∈ constructsOfAll depth nodes := by
  induction among with
  | head rest => exact List.mem_append_left _ member
  | tail first among inductionHypothesis => exact List.mem_append_right _ inductionHypothesis

theorem mem_constructsOfAll_of_constructAt
    {path : List Nat}
    {nodes : List Node}
    {found : Construct}
    (foundAt : constructAt path nodes = some found)
    (depth : Nat) :
    (depth + path.length - 1, found) ∈ constructsOfAll depth nodes := by
  induction foundAt using constructAt_induction generalizing depth with
  | here index nodes foundAt standsAt =>
      exact mem_constructsOfAll_of_mem (List.mem_of_getElem? standsAt) List.mem_cons_self
  | inside index next path nodes frame body foundAt foundInside standsAt
      inductionHypothesis =>
      apply mem_constructsOfAll_of_mem (List.mem_of_getElem? standsAt)
      apply List.mem_cons_of_mem
      convert inductionHypothesis (depth + 1) using 2
      simp only [List.length_cons]
      omega

/-! ## The other constructs -/

/-- Nodes differ at a path alone: every other construct keeps its frame, and those whose
bodies do not hold the path keep everything. -/
structure SameBeside (path : List Nat) (before after : List Node) : Prop where
  /-- Every construct at another path keeps its frame. -/
  frames :
    ∀ other, other ≠ path →
      (constructAt other after).map Construct.toFrame =
        (constructAt other before).map Construct.toFrame
  /-- A construct that does not hold the path is the same. -/
  apart : ∀ other, ¬ other <+: path → constructAt other after = constructAt other before

theorem SameBeside.refl (path : List Nat) (nodes : List Node) : SameBeside path nodes nodes where
  frames := fun _ _ => rfl
  apart := fun _ _ => rfl

section SetNode

variable {index : Nat} {nodes : List Node}

theorem getElem?_set_self
    {node : Node}
    (standsAt : nodes[index]? = some node)
    (new : Node) :
    (nodes.set index new)[index]? = some new :=
  List.getElem?_set_self (List.getElem?_eq_some_iff.mp standsAt).1

theorem constructAt_set_of_ne
    {other : Nat}
    (different : other ≠ index)
    (path : List Nat)
    (new : Node) :
    constructAt (other :: path) (nodes.set index new) = constructAt (other :: path) nodes := by
  simp only [constructAt, List.getElem?_set_ne different.symm]

/-- Nodes differ at a path if one construct is exchanged for one with a body that differs at
the rest of the path.  The frame may differ where the path ends. -/
theorem SameBeside.set
    {path : List Nat}
    {body newBody : List Node}
    {frame newFrame : Frame}
    (same : SameBeside path body newBody)
    (standsAt : nodes[index]? = some (.construct frame body))
    (framed : path = [] ∨ newFrame = frame) :
    SameBeside (index :: path) nodes (nodes.set index (.construct newFrame newBody)) where
  frames := by
    intro other elsewhere
    cases other with
    | nil => rfl
    | cons first others =>
        by_cases sameIndex : first = index
        · subst sameIndex
          have elsewhereInside : others ≠ path := fun equal =>
            elsewhere (congrArg (first :: ·) equal)
          cases others with
          | nil =>
              have sameFrame := framed.resolve_left elsewhereInside.symm
              rw [constructAt_singleton (getElem?_set_self standsAt _),
                constructAt_singleton standsAt, Option.map_some, Option.map_some, sameFrame]
          | cons second further =>
              rw [constructAt_cons_cons (getElem?_set_self standsAt _),
                constructAt_cons_cons standsAt, same.frames _ elsewhereInside]
        · rw [constructAt_set_of_ne sameIndex]
  apart := by
    intro other apart
    cases other with
    | nil => rfl
    | cons first others =>
        by_cases sameIndex : first = index
        · subst sameIndex
          rw [List.cons_prefix_cons, not_and] at apart
          cases others with
          | nil => exact absurd List.nil_prefix (apart rfl)
          | cons second further =>
              rw [constructAt_cons_cons (getElem?_set_self standsAt _),
                constructAt_cons_cons standsAt, same.apart _ (apart rfl)]
        · rw [constructAt_set_of_ne sameIndex]

end SetNode

/-- Writing at a path succeeds if there is a construct, and changes this construct alone. -/
theorem exists_writeAlong
    {path : List Nat}
    {nodes : List Node}
    {found : Construct}
    (foundAt : constructAt path nodes = some found)
    (doc : Text) :
    ∃ changed,
      writeAlong doc path nodes = some (changed, found.writeDoc doc) ∧
        constructAt path changed = some (found.writeDoc doc) ∧
          SameBeside path nodes changed := by
  induction foundAt using constructAt_induction with
  | here index nodes foundAt standsAt =>
      refine ⟨_, writeAlong_singleton doc standsAt, ?_, ?_⟩
      · exact constructAt_singleton (getElem?_set_self standsAt _)
      · exact (SameBeside.refl [] found.body).set standsAt (.inl rfl)
  | inside index next path nodes frame body foundAt foundInside standsAt
      inductionHypothesis =>
      obtain ⟨changed, written, foundAgain, same⟩ := inductionHypothesis
      refine ⟨nodes.set index (.construct frame changed), ?_, ?_, ?_⟩
      · rw [writeAlong_cons_cons doc standsAt, written, Option.map_some]
      · rw [constructAt_cons_cons (getElem?_set_self standsAt _), foundAgain]
      · exact same.set standsAt (.inr rfl)

/-! ## The text -/

theorem sourcesOfAll_eq_map (nodes : List Node) : sourcesOfAll nodes = nodes.map source := by
  induction nodes with
  | nil => rfl
  | cons node rest inductionHypothesis =>
      rw [sourcesOfAll, inductionHypothesis, List.map_cons]

/-- The text around one of the nodes does not depend on the node. -/
theorem exists_joinLines_sources_set
    {index : Nat}
    {nodes : List Node}
    {node : Node}
    (standsAt : nodes[index]? = some node) :
    ∃ front back,
      Text.joinLines (sourcesOfAll nodes) = front ++ node.source ++ back ∧
        ∀ new : Node, Text.joinLines (sourcesOfAll (nodes.set index new)) =
          front ++ new.source ++ back := by
  obtain ⟨inside, node_eq⟩ := List.getElem?_eq_some_iff.mp standsAt
  have insideSources : index < (nodes.map source).length := by
    rwa [List.length_map]
  obtain ⟨front, back, joined⟩ := Text.exists_joinLines_set insideSources
  have exchanged (new : Node) : Text.joinLines (sourcesOfAll (nodes.set index new)) =
      front ++ new.source ++ back := by
    rw [sourcesOfAll_eq_map, List.map_set, joined]
  refine ⟨front, back, ?_, exchanged⟩
  rw [← exchanged node, ← node_eq, List.set_getElem_self]

/-- The text of a construct around its documentation does not depend on the
documentation. -/
theorem exists_source_construct_around_doc (frame : Frame) (body : List Node) :
    ∃ front back, ∀ doc : List Line,
      (construct { frame with doc } body).source =
        front ++ { frame with doc }.docBlock ++ back := by
  refine ⟨frame.header ++ ['\n'],
    (if body.isEmpty then [] else Text.joinLines (sourcesOfAll body) ++ ['\n']) ++
      frame.closing, ?_⟩
  intro doc
  simp only [source, Frame.header, Frame.headerLines, List.append_assoc, List.cons_append,
    List.nil_append]

/-- The text of a construct around a body with nodes does not depend on the body. -/
theorem exists_source_construct_around_body (frame : Frame) :
    ∃ front back, ∀ body, body ≠ [] →
      (construct frame body).source =
        front ++ Text.joinLines (sourcesOfAll body) ++ back := by
  refine ⟨frame.header ++ '\n' :: frame.docBlock, '\n' :: frame.closing, ?_⟩
  intro body notEmpty
  rw [source, List.isEmpty_eq_false_iff.mpr notEmpty]
  simp only [Bool.false_eq_true, if_false, List.append_assoc, List.cons_append,
    List.nil_append]

/-- The text around the documentation of a construct does not depend on what is written
into the construct. -/
theorem exists_joinLines_sources_around_doc
    {path : List Nat}
    {nodes : List Node}
    {found : Construct}
    (foundAt : constructAt path nodes = some found) :
    ∃ front back,
      Text.joinLines (sourcesOfAll nodes) = front ++ found.docBlock ++ back ∧
        ∀ doc changed, writeAlong doc path nodes = some (changed, found.writeDoc doc) →
          Text.joinLines (sourcesOfAll changed) =
            front ++ (found.writeDoc doc).docBlock ++ back := by
  induction foundAt using constructAt_induction with
  | here index nodes foundAt standsAt =>
      obtain ⟨before, behind, nodes_eq, set_eq⟩ := exists_joinLines_sources_set standsAt
      obtain ⟨front, back, construct_eq⟩ :=
        exists_source_construct_around_doc found.toFrame found.body
      refine ⟨before ++ front, back ++ behind, ?_, ?_⟩
      · rw [nodes_eq, Construct.toNode, construct_eq found.doc]
        simp only [List.append_assoc]
      · intro doc changed written
        rw [writeAlong_singleton doc standsAt, Option.some.injEq, Prod.mk.injEq] at written
        rw [← written.1, set_eq, Frame.writeDoc, construct_eq]
        simp only [List.append_assoc, Construct.writeDoc, Frame.writeDoc]
  | inside index next path nodes frame body foundAt foundInside standsAt
      inductionHypothesis =>
      obtain ⟨before, behind, nodes_eq, set_eq⟩ := exists_joinLines_sources_set standsAt
      obtain ⟨above, below, construct_eq⟩ := exists_source_construct_around_body frame
      obtain ⟨front, back, body_eq, written_eq⟩ := inductionHypothesis
      refine ⟨before ++ above ++ front, back ++ below ++ behind, ?_, ?_⟩
      · rw [nodes_eq, construct_eq body (ne_nil_of_constructAt foundInside), body_eq]
        simp only [List.append_assoc]
      · intro doc changed written
        obtain ⟨newBody, bodyWritten, foundAgain, -⟩ := exists_writeAlong foundInside doc
        rw [writeAlong_cons_cons doc standsAt, bodyWritten, Option.map_some,
          Option.some.injEq, Prod.mk.injEq] at written
        rw [← written.1, set_eq, construct_eq newBody (ne_nil_of_constructAt foundAgain),
          written_eq doc newBody bodyWritten]
        simp only [List.append_assoc]

end Node

namespace Tree

/-- The construct at a path of node indexes. -/
def constructAt (path : List Nat) (tree : Tree) : Option Construct :=
  Node.constructAt path tree.nodes

/-- Every construct stands at a path, which is one longer than the construct is deep. -/
theorem mem_constructs_iff {tree : Tree} {depth : Nat} {construct : Construct} :
    (depth, construct) ∈ tree.constructs ↔
      ∃ path, path.length = depth + 1 ∧ tree.constructAt path = some construct := by
  constructor
  · intro member
    obtain ⟨path, deep, foundAt⟩ := Node.exists_constructAt_of_mem member
    exact ⟨path, (Nat.zero_add _).symm.trans deep, foundAt⟩
  · rintro ⟨path, deep, foundAt⟩
    have member := Node.mem_constructsOfAll_of_constructAt foundAt 0
    rwa [deep, Nat.zero_add, Nat.add_sub_cancel] at member

/-- Every construct stands at a path, and its documentation is one segment of the text of
the tree.  Writing into the construct exchanges this segment, with the same text around it
for every documentation.  The construct changes nowhere else, no other construct changes its
frame, and one that does not hold the place is the same in all its parts. -/
theorem writeAlong_isolated (tree : Tree) :
    (∀ depth construct, (depth, construct) ∈ tree.constructs ↔
      ∃ path, path.length = depth + 1 ∧ tree.constructAt path = some construct) ∧
    ∀ path construct, tree.constructAt path = some construct →
      ∃ front back,
        tree.source = front ++ construct.docBlock ++ back ∧
          ∀ doc, ∃ result,
            let written := { construct with doc := (Text.lines doc).map construct.commented }
            tree.writeAlong path doc = some (result, written) ∧
              result.source = front ++ written.docBlock ++ back ∧
              result.constructAt path = some written ∧
              (∀ other, other ≠ path →
                (result.constructAt other).map Construct.toFrame =
                  (tree.constructAt other).map Construct.toFrame) ∧
              ∀ other, ¬ other <+: path →
                result.constructAt other = tree.constructAt other := by
  refine ⟨fun _ _ => mem_constructs_iff, ?_⟩
  intro path construct foundAt
  obtain ⟨front, back, tree_eq, written_eq⟩ :=
    Node.exists_joinLines_sources_around_doc foundAt
  refine ⟨front, back, tree_eq, ?_⟩
  intro doc
  obtain ⟨changed, written, foundAgain, same⟩ := Node.exists_writeAlong foundAt doc
  refine ⟨{ nodes := changed }, ?_, written_eq doc changed written, foundAgain,
    same.frames, same.apart⟩
  rw [writeAlong, written, Option.map_some]
  rfl

/-- The type in the nested module may get any documentation, and the procedure behind it
stays as it is. -/
theorem writeAlong_isolated_nestedTree :
    ∃ front back,
      nestedSource = front ++ back ∧
        ∀ doc, ∃ result written,
          nestedTree.writeAlong [1, 1] doc = some (result, written) ∧
            result.source = front ++ written.docBlock ++ back ∧
            result.constructAt [1, 3] = nestedTree.constructAt [1, 3] := by
  obtain ⟨construct, foundAt⟩ : ∃ construct, nestedTree.constructAt [1, 1] = some construct :=
    ⟨_, rfl⟩
  have undocumented : construct.docBlock = [] := by
    cases foundAt
    rfl
  obtain ⟨front, back, source_eq, isolated⟩ :=
    (writeAlong_isolated nestedTree).2 [1, 1] construct foundAt
  rw [source_of_parse parse_nestedSource, undocumented, List.append_nil] at source_eq
  refine ⟨front, back, source_eq, ?_⟩
  intro doc
  obtain ⟨result, written, exchanged, -, -, apart⟩ := isolated doc
  exact ⟨result, _, written, exchanged, apart [1, 3] (by decide)⟩

end Tree
end FortranDocs
