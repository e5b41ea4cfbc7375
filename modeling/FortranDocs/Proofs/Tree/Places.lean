import FortranDocs.Proofs.Tree.Nesting

/-!
# The places of constructs

Every construct of a tree stands at a path of node indexes.  `Tree.places` lists these paths,
each once and in the order of the source, which is that of the paths as lists of numbers.
`Tree.map_places` states that the constructs are listed in this order, each with the number of
constructs around it.
-/

namespace FortranDocs
namespace Node

mutual

/-- The paths to the constructs of a node that has a given index, each in front of those that
lead into its body. -/
def places (index : Nat) : Node -> List (List Nat)
  | .text _ => []
  | .construct _ body => [index] :: (placesFrom 0 body).map (index :: ·)

/-- The paths to the constructs of a sequence of nodes, of which the first has a given index. -/
def placesFrom (index : Nat) : List Node -> List (List Nat)
  | [] => []
  | node :: rest => node.places index ++ placesFrom (index + 1) rest

end

@[simp] theorem placesFrom_nil (index : Nat) : placesFrom index [] = [] := by
  simp only [placesFrom]

@[simp] theorem placesFrom_text (index : Nat) (lines : List Line) (rest : List Node) :
    placesFrom index (.text lines :: rest) = placesFrom (index + 1) rest := by
  simp only [placesFrom, places, List.nil_append]

@[simp] theorem placesFrom_construct
    (index : Nat)
    (frame : Frame)
    (body rest : List Node) :
    placesFrom index (.construct frame body :: rest) =
      [index] :: (placesFrom 0 body).map (index :: ·) ++ placesFrom (index + 1) rest := by
  simp only [placesFrom, places]

/-- A path starts with the index of one of the nodes. -/
theorem exists_of_mem_placesFrom
    {index : Nat}
    {nodes : List Node}
    {path : List Nat}
    (present : path ∈ placesFrom index nodes) :
    ∃ first rest, path = first :: rest ∧ index ≤ first := by
  induction nodes generalizing index with
  | nil => simp at present
  | cons node others inductionHypothesis =>
      simp only [placesFrom, List.mem_append] at present
      rcases present with here | behind
      · cases node with
        | text lines => simp [places] at here
        | construct frame body =>
            simp only [places, List.mem_cons, List.mem_map] at here
            rcases here with rfl | ⟨inner, -, rfl⟩
            · exact ⟨index, [], rfl, Nat.le_refl index⟩
            · exact ⟨index, inner, rfl, Nat.le_refl index⟩
      · obtain ⟨first, rest, path_eq, bound⟩ := inductionHypothesis behind
        exact ⟨first, rest, path_eq, Nat.le_of_succ_le bound⟩

/-- The paths are listed in their order as lists of numbers. -/
theorem pairwise_placesFrom (index : Nat) (nodes : List Node) :
    (placesFrom index nodes).Pairwise (· < ·) := by
  induction nodes using inductionAll generalizing index with
  | nil => simp
  | text lines rest restHypothesis =>
      rw [placesFrom_text]
      exact restHypothesis (index + 1)
  | construct frame body rest bodyHypothesis restHypothesis =>
      rw [placesFrom_construct, List.cons_append, List.pairwise_cons, List.pairwise_append,
        List.pairwise_map]
      refine ⟨?_, ?_, restHypothesis (index + 1), ?_⟩
      · intro path present
        rcases List.mem_append.mp present with inBody | behind
        · obtain ⟨inner, innerPresent, rfl⟩ := List.mem_map.mp inBody
          obtain ⟨first, others, rfl, -⟩ := exists_of_mem_placesFrom innerPresent
          exact List.cons_lt_cons_iff.mpr (.inr ⟨rfl, List.nil_lt_cons first others⟩)
        · obtain ⟨first, others, rfl, bound⟩ := exists_of_mem_placesFrom behind
          exact List.cons_lt_cons_iff.mpr (.inl bound)
      · exact (bodyHypothesis 0).imp fun ordered =>
          List.cons_lt_cons_iff.mpr (.inr ⟨rfl, ordered⟩)
      · intro path inBody other behind
        obtain ⟨inner, -, rfl⟩ := List.mem_map.mp inBody
        obtain ⟨first, others, rfl, bound⟩ := exists_of_mem_placesFrom behind
        exact List.cons_lt_cons_iff.mpr (.inl bound)

/-- The constructs are listed in the order of their paths, behind any nodes in front. -/
theorem map_constructAt_placesFrom (depth : Nat) (front nodes : List Node) :
    ((placesFrom front.length nodes).map fun path =>
        (constructAt path (front ++ nodes)).map fun found =>
          (depth + (path.length - 1), found)) =
      (constructsOfAll depth nodes).map some := by
  induction nodes using inductionAll generalizing depth front with
  | nil => simp [constructsOfAll]
  | text lines rest restHypothesis =>
      have behind := restHypothesis depth (front ++ [.text lines])
      rw [List.length_append, List.append_assoc] at behind
      rw [placesFrom_text, constructsOfAll, constructs, List.nil_append]
      exact behind
  | construct frame body rest bodyHypothesis restHypothesis =>
      have standsAt :
          (front ++ .construct frame body :: rest)[front.length]? =
            some (.construct frame body) := by
        simp
      have behind := restHypothesis depth (front ++ [.construct frame body])
      rw [List.length_append, List.append_assoc] at behind
      rw [placesFrom_construct, constructsOfAll, constructs, List.cons_append, List.map_cons,
        List.map_append, List.cons_append, List.map_cons, List.map_append, ← behind,
        ← bodyHypothesis (depth + 1) [], List.map_map, constructAt_singleton standsAt]
      -- A path into the body is one longer, and so is the construct there one deeper.
      congr 2
      apply List.map_congr_left
      intro path present
      obtain ⟨first, others, rfl, -⟩ := exists_of_mem_placesFrom present
      have deeper : depth + (others.length + 1) = depth + 1 + others.length := by
        omega
      simp only [Function.comp_apply, constructAt_cons_cons standsAt, List.length_cons,
        Nat.add_sub_cancel, List.nil_append, deeper]

theorem mem_placesFrom_of_getElem?
    {nodes : List Node}
    {node : Node}
    {path : List Nat}
    {start index : Nat}
    (standsAt : nodes[index]? = some node)
    (present : path ∈ node.places (start + index)) :
    path ∈ placesFrom start nodes := by
  induction nodes generalizing start index with
  | nil => simp at standsAt
  | cons first rest inductionHypothesis =>
      rw [placesFrom, List.mem_append]
      cases index with
      | zero =>
          obtain rfl : first = node := Option.some.inj standsAt
          exact .inl present
      | succ index =>
          rw [Nat.add_comm index, ← Nat.add_assoc] at present
          exact .inr (inductionHypothesis standsAt present)

theorem mem_placesFrom_of_constructAt
    {path : List Nat}
    {nodes : List Node}
    {found : Construct}
    (foundAt : constructAt path nodes = some found) :
    path ∈ placesFrom 0 nodes := by
  induction foundAt using constructAt_induction with
  | here index nodes foundAt standsAt =>
      apply mem_placesFrom_of_getElem? standsAt
      rw [Nat.zero_add, Construct.toNode, places]
      exact List.mem_cons_self
  | inside index next path nodes frame body foundAt foundInside standsAt
      inductionHypothesis =>
      apply mem_placesFrom_of_getElem? standsAt
      rw [Nat.zero_add, places]
      exact List.mem_cons_of_mem _ (List.mem_map_of_mem inductionHypothesis)

end Node

namespace Tree

/-- The paths to the constructs of a tree, in the order of the source. -/
def places (tree : Tree) : List (List Nat) :=
  Node.placesFrom 0 tree.nodes

/-- The constructs are listed in the order of their paths, each with the number of constructs
around it: those along its path, but for the construct itself. -/
theorem map_places (tree : Tree) :
    (tree.places.map fun path =>
        (tree.constructAt path).map fun found =>
          ((tree.constructsAlong path).length - 1, found)) =
      tree.constructs.map some := by
  rw [constructs, ← Node.map_constructAt_placesFrom 0 [] tree.nodes]
  apply List.map_congr_left
  intro path _
  rw [List.nil_append, constructAt]
  cases foundAt : Node.constructAt path tree.nodes with
  | none => rfl
  | some found => rw [constructsAlong, Node.length_constructsAlong foundAt, Nat.zero_add]

/-- The places are the paths at which there is a construct. -/
theorem mem_places_iff {tree : Tree} {path : List Nat} :
    path ∈ tree.places ↔ (tree.constructAt path).isSome = true := by
  constructor
  · intro present
    have listed := List.mem_map_of_mem
      (f := fun path => (tree.constructAt path).map fun found =>
        ((tree.constructsAlong path).length - 1, found)) present
    rw [map_places] at listed
    obtain ⟨place, -, place_eq⟩ := List.mem_map.mp listed
    obtain ⟨found, foundAt, -⟩ := Option.map_eq_some_iff.mp place_eq.symm
    rw [foundAt]
    rfl
  · intro isSome
    obtain ⟨found, foundAt⟩ := Option.isSome_iff_exists.mp isSome
    exact Node.mem_placesFrom_of_constructAt foundAt

/-- The places are in order, and so each of them is listed once. -/
theorem pairwise_places (tree : Tree) : tree.places.Pairwise (· < ·) :=
  Node.pairwise_placesFrom 0 tree.nodes

end Tree
end FortranDocs
