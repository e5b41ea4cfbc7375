import FortranDocs.Documentation

/-!
# The frames of a tree

The frames of all constructs as one list, in pre-order, and what a change of every frame
does to them.  Changes compose, and a change that keeps every frame keeps the tree.
-/

namespace FortranDocs

namespace Construct

/-- Change every frame of a construct, which has the number given. -/
def mapFrames (change : Nat -> Frame -> Frame) (number : Nat) (construct : Construct) :
    Construct where
  toFrame := change number construct.toFrame
  body := Node.mapFramesOfAll change (number + 1) construct.body

end Construct

namespace Node

mutual

/-- The frames of a node and of everything below it, each in front of those in its
body. -/
def frames : Node -> List Frame
  | .text _ => []
  | .construct frame body => frame :: framesOfAll body

/-- The frames of a sequence of nodes. -/
def framesOfAll : List Node -> List Frame
  | [] => []
  | node :: rest => node.frames ++ framesOfAll rest

end

@[simp] theorem framesOfAll_nil : framesOfAll [] = [] := by
  simp only [framesOfAll]

@[simp] theorem framesOfAll_text (lines : List Line) (rest : List Node) :
    framesOfAll (.text lines :: rest) = framesOfAll rest := by
  simp only [framesOfAll, frames, List.nil_append]

@[simp] theorem framesOfAll_construct (frame : Frame) (body rest : List Node) :
    framesOfAll (.construct frame body :: rest) =
      frame :: (framesOfAll body ++ framesOfAll rest) := by
  simp only [framesOfAll, frames, List.cons_append]

/-- The constructs carry the frames, in the same order. -/
theorem map_constructsOfAll (depth : Nat) (nodes : List Node) :
    (constructsOfAll depth nodes).map (fun (_, found) => found.toFrame) =
      framesOfAll nodes := by
  induction nodes using inductionAll generalizing depth with
  | nil => simp [constructsOfAll]
  | text lines rest restHypothesis =>
      simp [constructsOfAll, constructs, restHypothesis]
  | construct frame body rest bodyHypothesis restHypothesis =>
      simp [constructsOfAll, constructs, bodyHypothesis, restHypothesis]

theorem length_constructsOfAll (depth : Nat) (nodes : List Node) :
    (constructsOfAll depth nodes).length = countAll nodes := by
  induction nodes using inductionAll generalizing depth with
  | nil => simp [constructsOfAll, countAll]
  | text lines rest restHypothesis =>
      simp [constructsOfAll, constructs, countAll, count, restHypothesis]
  | construct frame body rest bodyHypothesis restHypothesis =>
      simp only [constructsOfAll, constructs, countAll, count, List.length_append,
        List.length_cons, bodyHypothesis, restHypothesis]
      omega

theorem length_framesOfAll (nodes : List Node) :
    (framesOfAll nodes).length = countAll nodes := by
  rw [← map_constructsOfAll 0 nodes, List.length_map, length_constructsOfAll]

/-! ## Changed frames -/

section Changes

variable {change first second : Nat -> Frame -> Frame}

@[simp] theorem mapFramesOfAll_nil (number : Nat) :
    mapFramesOfAll change number [] = [] := by
  simp only [mapFramesOfAll]

@[simp] theorem mapFramesOfAll_text (number : Nat) (lines : List Line) (rest : List Node) :
    mapFramesOfAll change number (.text lines :: rest) =
      .text lines :: mapFramesOfAll change number rest := by
  simp only [mapFramesOfAll, mapFrames, count, Nat.add_zero]

@[simp] theorem mapFramesOfAll_construct
    (number : Nat)
    (frame : Frame)
    (body rest : List Node) :
    mapFramesOfAll change number (.construct frame body :: rest) =
      .construct (change number frame) (mapFramesOfAll change (number + 1) body) ::
        mapFramesOfAll change (number + 1 + countAll body) rest := by
  simp only [mapFramesOfAll, mapFrames, count, Nat.add_assoc]

theorem isEmpty_mapFramesOfAll (number : Nat) (nodes : List Node) :
    (mapFramesOfAll change number nodes).isEmpty = nodes.isEmpty := by
  cases nodes with
  | nil => simp
  | cons node rest => simp [mapFramesOfAll]

theorem countAll_mapFramesOfAll (number : Nat) (nodes : List Node) :
    countAll (mapFramesOfAll change number nodes) = countAll nodes := by
  induction nodes using inductionAll generalizing number with
  | nil => simp
  | text lines rest restHypothesis => simp [countAll, count, restHypothesis]
  | construct frame body rest bodyHypothesis restHypothesis =>
      simp [countAll, count, bodyHypothesis, restHypothesis]

/-- Two changes one after the other are one change. -/
theorem mapFramesOfAll_mapFramesOfAll (number : Nat) (nodes : List Node) :
    mapFramesOfAll second number (mapFramesOfAll first number nodes) =
      mapFramesOfAll (fun number frame => second number (first number frame)) number
        nodes := by
  induction nodes using inductionAll generalizing number with
  | nil => simp
  | text lines rest restHypothesis => simp [restHypothesis]
  | construct frame body rest bodyHypothesis restHypothesis =>
      simp [countAll_mapFramesOfAll, bodyHypothesis, restHypothesis]

/-- Changes that agree on the constructs of some nodes, each counted from a number of its
own, are the same there. -/
theorem mapFramesOfAll_congr
    {nodes : List Node}
    {number other : Nat}
    (agree :
      ∀ (index : Nat) frame, (framesOfAll nodes)[index]? = some frame →
        first (number + index) frame = second (other + index) frame) :
    mapFramesOfAll first number nodes = mapFramesOfAll second other nodes := by
  induction nodes using inductionAll generalizing number other with
  | nil => simp
  | text lines rest restHypothesis =>
      rw [framesOfAll_text] at agree
      rw [mapFramesOfAll_text, mapFramesOfAll_text, restHypothesis agree]
  | construct frame body rest bodyHypothesis restHypothesis =>
      rw [framesOfAll_construct] at agree
      have agreeHere : first number frame = second other frame := agree 0 frame rfl
      have agreeInside : ∀ (index : Nat) inner, (framesOfAll body)[index]? = some inner →
          first (number + 1 + index) inner = second (other + 1 + index) inner := by
        intro index inner found
        have inside : index < (framesOfAll body).length :=
          (List.getElem?_eq_some_iff.mp found).1
        rw [Nat.add_assoc, Nat.add_assoc, Nat.add_comm 1 index]
        apply agree (index + 1) inner
        rw [List.getElem?_cons_succ, List.getElem?_append_left inside, found]
      have agreeBehind : ∀ (index : Nat) inner, (framesOfAll rest)[index]? = some inner →
          first (number + 1 + countAll body + index) inner =
            second (other + 1 + countAll body + index) inner := by
        intro index inner found
        simp only [Nat.add_assoc, Nat.add_comm 1]
        apply agree (countAll body + index + 1) inner
        rw [List.getElem?_cons_succ, ← length_framesOfAll body,
          List.getElem?_append_right (Nat.le_add_right _ _), Nat.add_sub_cancel_left, found]
      rw [mapFramesOfAll_construct, mapFramesOfAll_construct, agreeHere,
        bodyHypothesis agreeInside, restHypothesis agreeBehind]

end Changes

/-- The constructs of changed nodes are the changed constructs, each under its number. -/
theorem constructsOfAll_mapFramesOfAll
    (change : Nat -> Frame -> Frame)
    (depth number : Nat)
    (nodes : List Node) :
    constructsOfAll depth (mapFramesOfAll change number nodes) =
      (constructsOfAll depth nodes).mapIdx fun index (depth, found) =>
        (depth, found.mapFrames change (number + index)) := by
  induction nodes using inductionAll generalizing depth number with
  | nil => simp [constructsOfAll]
  | text lines rest restHypothesis =>
      simp [constructsOfAll, constructs, restHypothesis]
  | construct frame body rest bodyHypothesis restHypothesis =>
      have inside (index : Nat) : number + 1 + index = number + (index + 1) := by
        omega
      have behind (index : Nat) :
          number + 1 + countAll body + index = number + (index + countAll body + 1) := by
        omega
      simp only [mapFramesOfAll_construct, constructsOfAll, constructs, bodyHypothesis,
        restHypothesis, behind, List.cons_append, List.mapIdx_cons, List.mapIdx_append,
        length_constructsOfAll]
      simp only [inside]
      rfl

/-- A change that does not look at the number changes the list of frames one by one. -/
theorem framesOfAll_mapFramesOfAll
    (change : Frame -> Frame)
    (number : Nat)
    (nodes : List Node) :
    framesOfAll (mapFramesOfAll (fun _ => change) number nodes) =
      (framesOfAll nodes).map change := by
  induction nodes using inductionAll generalizing number with
  | nil => simp
  | text lines rest restHypothesis => simp [restHypothesis]
  | construct frame body rest bodyHypothesis restHypothesis =>
      simp [bodyHypothesis, restHypothesis]

/-- A change that keeps every frame of some nodes keeps the nodes. -/
theorem mapFramesOfAll_eq_self
    {change : Frame -> Frame}
    {nodes : List Node}
    (keeps : ∀ frame ∈ framesOfAll nodes, change frame = frame)
    (number : Nat) :
    mapFramesOfAll (fun _ => change) number nodes = nodes := by
  induction nodes using inductionAll generalizing number with
  | nil => simp
  | text lines rest restHypothesis =>
      rw [framesOfAll_text] at keeps
      rw [mapFramesOfAll_text, restHypothesis keeps]
  | construct frame body rest bodyHypothesis restHypothesis =>
      rw [framesOfAll_construct, List.forall_mem_cons, List.forall_mem_append] at keeps
      obtain ⟨keepsFrame, keepsBody, keepsRest⟩ := keeps
      rw [mapFramesOfAll_construct, keepsFrame, bodyHypothesis keepsBody,
        restHypothesis keepsRest]

end Node

namespace Tree

/-- The frames of all constructs, each in front of those in its body. -/
def frames (tree : Tree) : List Frame :=
  tree.constructs.map fun (_, found) => found.toFrame

theorem frames_eq (tree : Tree) : tree.frames = Node.framesOfAll tree.nodes :=
  Node.map_constructsOfAll 0 tree.nodes

/-- Two changes of a tree one after the other are one change. -/
theorem mapFrames_mapFrames (first second : Nat -> Frame -> Frame) (tree : Tree) :
    (tree.mapFrames first).mapFrames second =
      tree.mapFrames fun number frame => second number (first number frame) := by
  simp only [mapFrames, Node.mapFramesOfAll_mapFramesOfAll]

theorem frames_mapFrames (change : Frame -> Frame) (tree : Tree) :
    (tree.mapFrames fun _ => change).frames = tree.frames.map change := by
  simp only [frames_eq, mapFrames, Node.framesOfAll_mapFramesOfAll]

theorem getElem?_constructs_mapFrames
    (change : Nat -> Frame -> Frame)
    (tree : Tree)
    (index : Nat) :
    (tree.mapFrames change).constructs[index]? =
      tree.constructs[index]?.map fun (depth, construct) =>
        (depth, construct.mapFrames change index) := by
  rw [constructs, mapFrames, Node.constructsOfAll_mapFramesOfAll, List.getElem?_mapIdx,
    constructs]
  simp only [Nat.zero_add]

theorem mapFrames_eq_self
    {change : Frame -> Frame}
    {tree : Tree}
    (keeps : ∀ frame ∈ tree.frames, change frame = frame) :
    (tree.mapFrames fun _ => change) = tree := by
  rw [frames_eq] at keeps
  rw [mapFrames, Node.mapFramesOfAll_eq_self keeps]

/-- Changes that agree on the numbers of the constructs of a tree are the same there. -/
theorem mapFrames_congr
    {first second : Nat -> Frame -> Frame}
    {tree : Tree}
    (agree : ∀ number < tree.constructs.length, first number = second number) :
    tree.mapFrames first = tree.mapFrames second := by
  unfold mapFrames
  rw [Tree.mk.injEq]
  apply Node.mapFramesOfAll_congr
  intro index frame found
  have inside : index < tree.constructs.length := by
    rw [constructs, Node.length_constructsOfAll, ← Node.length_framesOfAll]
    exact (List.getElem?_eq_some_iff.mp found).1
  rw [Nat.zero_add, agree index inside]

end Tree

/-! ## Constructs without documentation -/

/-- The undocumented constructs of a sequence are found among all its constructs. -/
theorem Node.undocumentedOfAll_eq (depth : Nat) (nodes : List Node) :
    undocumentedOfAll depth nodes =
      ((constructsOfAll depth nodes).filter fun (_, here) => !here.hasDoc).map
        fun (depth, here) =>
          { kind := here.kind
            line := here.line
            depth
            signature := here.signature } := by
  induction nodes using Node.inductionAll generalizing depth with
  | nil => rfl
  | text lines rest restHypothesis =>
      simp only [undocumentedOfAll, undocumented, constructsOfAll, constructs, List.nil_append,
        restHypothesis]
  | construct frame body rest bodyHypothesis restHypothesis =>
      simp only [undocumentedOfAll, undocumented, constructsOfAll, constructs, List.cons_append,
        List.filter_cons, List.filter_append, bodyHypothesis, restHypothesis]
      cases frame.hasDoc <;> simp

namespace Tree

theorem undocumented_eq (tree : Tree) :
    tree.undocumented =
      (tree.constructs.filter fun (_, construct) => !construct.hasDoc).map
        fun (depth, construct) =>
          { kind := construct.kind
            line := construct.line
            depth
            signature := construct.signature } :=
  Node.undocumentedOfAll_eq 0 tree.nodes

/-- A tree has no undocumented construct exactly if every frame has documentation. -/
theorem undocumented_eq_nil_iff {tree : Tree} :
    tree.undocumented = [] ↔ ∀ frame ∈ tree.frames, frame.hasDoc = true := by
  rw [undocumented_eq, frames, List.map_eq_nil_iff, List.filter_eq_nil_iff, List.forall_mem_map]
  simp only [Bool.not_eq_true', Bool.not_eq_false]

end Tree
end FortranDocs
