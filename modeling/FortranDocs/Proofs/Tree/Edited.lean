import FortranDocs.Proofs.Tree.Histories
import FortranDocs.Proofs.Tree.Redocumenting
import Mathlib.Algebra.Order.Ring.Int

/-!
# Edited trees

Documentation is written into the constructs of a tree that was read, in any order and
any number of times.  `Tree.parse_source_edit_iff` states when the text of the edited tree
is read back as that tree, and where its constructs are found then.
-/

namespace FortranDocs

namespace Frame

/-- The number of documentation lines that a frame has gained. -/
def growth (before after : Frame) : Int :=
  (after.doc.length : Int) - before.doc.length

theorem redocumented_withText (doc : Option Text) (frame : Frame) :
    frame.Redocumented (frame.withText doc) := by
  cases doc with
  | none => exact .refl frame
  | some doc => exact frame.redocumented_writeDoc doc

end Frame

/-- Lines moved by what is gained in front of them, besides a shift of them all. -/
def movedBy (shift : Int) : List Int -> List Int -> List Int
  | growth :: growths, line :: lines =>
      (line + shift) :: movedBy (shift + growth) growths lines
  | _, _ => []

theorem movedBy_append
    {frontGrowths frontLines : List Int}
    (length_eq : frontGrowths.length = frontLines.length)
    (shift : Int)
    (growths lines : List Int) :
    movedBy shift (frontGrowths ++ growths) (frontLines ++ lines) =
      movedBy shift frontGrowths frontLines ++
        movedBy (shift + frontGrowths.sum) growths lines := by
  induction frontGrowths generalizing shift frontLines with
  | nil =>
      obtain rfl := List.eq_nil_of_length_eq_zero length_eq.symm
      simp [movedBy]
  | cons growth rest inductionHypothesis =>
      cases frontLines with
      | nil => simp at length_eq
      | cons line others =>
          simp only [List.length_cons, Nat.add_right_cancel_iff] at length_eq
          simp only [List.cons_append, movedBy, inductionHypothesis length_eq,
            List.sum_cons, Int.add_assoc]

/-- Each line is moved by all that is gained in front of it. -/
theorem getElem?_movedBy
    {shift : Int}
    {growths lines : List Int}
    {index : Nat}
    {moved : Int}
    (found : (movedBy shift growths lines)[index]? = some moved) :
    ∃ line, lines[index]? = some line ∧ moved = line + shift + (growths.take index).sum := by
  induction index generalizing shift growths lines with
  | zero =>
      cases growths with
      | nil => simp [movedBy] at found
      | cons growth rest =>
          cases lines with
          | nil => simp [movedBy] at found
          | cons line others =>
              simp only [movedBy, List.getElem?_cons_zero, Option.some.injEq] at found
              exact ⟨line, rfl, by simp [found]⟩
  | succ index inductionHypothesis =>
      cases growths with
      | nil => simp [movedBy] at found
      | cons growth rest =>
          cases lines with
          | nil => simp [movedBy] at found
          | cons line others =>
              simp only [movedBy, List.getElem?_cons_succ] at found
              obtain ⟨line, inLines, moved_eq⟩ := inductionHypothesis found
              refine ⟨line, by simpa using inLines, ?_⟩
              rw [moved_eq, List.take_succ_cons, List.sum_cons]
              omega

namespace Node

variable {change : Nat -> Frame -> Frame}

theorem length_framesOfAll_mapFramesOfAll (number : Nat) (nodes : List Node) :
    (framesOfAll (mapFramesOfAll change number nodes)).length =
      (framesOfAll nodes).length := by
  induction nodes using inductionAll generalizing number with
  | nil => simp
  | text lines rest restHypothesis => simp [restHypothesis]
  | construct frame body rest bodyHypothesis restHypothesis =>
      simp [bodyHypothesis, restHypothesis]

/-- What each construct of some nodes gains by a change. -/
def growths (change : Nat -> Frame -> Frame) (number : Nat) (nodes : List Node) : List Int :=
  List.zipWith Frame.growth (framesOfAll nodes)
    (framesOfAll (mapFramesOfAll change number nodes))

theorem growths_construct (number : Nat) (frame : Frame) (body rest : List Node) :
    growths change number (construct frame body :: rest) =
      frame.growth (change number frame) ::
        (growths change (number + 1) body ++
          growths change (number + 1 + countAll body) rest) := by
  simp only [growths, mapFramesOfAll_construct, framesOfAll_construct, List.zipWith_cons_cons]
  rw [List.zipWith_append (length_framesOfAll_mapFramesOfAll _ _).symm]

/-- A redocumented sequence of nodes is longer by what its constructs gain. -/
theorem length_linesOfAll_mapFramesOfAll
    (redocuments : Redocuments change)
    (number : Nat)
    (nodes : List Node) :
    ((linesOfAll (mapFramesOfAll change number nodes)).length : Int) =
      (linesOfAll nodes).length + (growths change number nodes).sum := by
  induction nodes using inductionAll generalizing number with
  | nil => simp [growths]
  | text lines rest restHypothesis =>
      have restLength := restHypothesis number
      simp only [growths, framesOfAll_text, mapFramesOfAll_text, linesOfAll, Node.lines,
        List.length_append] at restLength ⊢
      omega
  | construct frame body rest bodyHypothesis restHypothesis =>
      have bodyLength := bodyHypothesis (number + 1)
      have restLength := restHypothesis (number + 1 + countAll body)
      rw [growths_construct, mapFramesOfAll_construct, (redocuments number frame).frame_eq]
      simp only [linesOfAll, Node.lines, Frame.headerLines, Frame.growth, List.length_append,
        List.length_cons, List.length_nil, List.sum_cons, List.sum_append]
      omega

/-- New numbers move the old ones by what is gained in front of them. -/
theorem line_framesOfAll_renumberAll
    (redocuments : Redocuments change)
    {nodes : List Node}
    {offset : Nat}
    (numbered : NumberedAll offset nodes)
    (number newOffset : Nat) :
    (framesOfAll (renumberAll newOffset (mapFramesOfAll change number nodes))).map
        (fun frame => (frame.line : Int)) =
      movedBy ((newOffset : Int) - offset) (growths change number nodes)
        ((framesOfAll (mapFramesOfAll change number nodes)).map
          fun frame => (frame.line : Int)) := by
  induction nodes using inductionAll generalizing offset number newOffset with
  | nil => simp [movedBy, growths]
  | text lines rest restHypothesis =>
      simp only [NumberedAll, Node.lines] at numbered
      have restLines := restHypothesis numbered.2 number (newOffset + lines.length)
      have shift_eq : ((newOffset + lines.length : Nat) : Int) - (offset + lines.length : Nat) =
          (newOffset : Int) - offset := by
        omega
      rw [shift_eq] at restLines
      simpa only [growths, mapFramesOfAll_text, renumberAll_text, framesOfAll_text]
        using restLines
  | construct frame body rest bodyHypothesis restHypothesis =>
      simp only [NumberedAll, Numbered] at numbered
      obtain ⟨⟨line_eq, bodyNumbered⟩, restNumbered⟩ := numbered
      have frame_eq := (redocuments number frame).frame_eq
      have bodyLength := length_linesOfAll_mapFramesOfAll redocuments (number + 1) body
      have length_eq :
          (growths change (number + 1) body).length =
            ((framesOfAll (mapFramesOfAll change (number + 1) body)).map
              fun frame => (frame.line : Int)).length := by
        simp [growths, length_framesOfAll_mapFramesOfAll]
      rw [growths_construct, mapFramesOfAll_construct, renumberAll_construct,
        framesOfAll_construct, framesOfAll_construct, List.map_cons, List.map_cons,
        List.map_append, List.map_append, movedBy, movedBy_append length_eq]
      generalize change number frame = after at frame_eq
      rw [bodyHypothesis bodyNumbered, restHypothesis restNumbered]
      congr 1
      · rw [frame_eq]
        simp only [line_eq]
        omega
      · congr 2
        · rw [frame_eq]
          simp only [Frame.headerLines, Frame.growth]
          omega
        · rw [frame_eq]
          simp only [Node.lines, Frame.headerLines, Frame.growth, List.length_append,
            List.length_cons, List.length_nil]
          omega

end Node

namespace Tree

/-- The documentation lines that the constructs in front of a given one, in pre-order,
have gained. -/
def growthBefore (index : Nat) (before after : Tree) : Int :=
  ((List.zipWith Frame.growth before.frames after.frames).take index).sum

/-- Every edit is a change that rewrites documentation alone. -/
theorem edit_eq_mapFrames (steps : List (Nat × Text)) (tree : Tree) :
    ∃ change, Redocuments change ∧ tree.edit steps = tree.mapFrames change := by
  refine ⟨fun number => Frame.withText (lastWritten steps number), ?_,
    edit_eq_mapFrames_lastWritten steps tree⟩
  intro number frame
  exact frame.redocumented_withText (lastWritten steps number)

/-- The constructs of a redocumented tree, numbered anew, are as many lines further down
as the constructs in front of them have gained. -/
theorem line_renumbered_mapFrames
    {tree : Tree}
    {change : Nat -> Frame -> Frame}
    (canonical : tree.Canonical)
    (redocuments : Redocuments change)
    {index : Nat}
    {current found : Frame}
    (inChanged : (tree.mapFrames change).frames[index]? = some current)
    (inNumbered : (tree.mapFrames change).renumbered.frames[index]? = some found) :
    (found.line : Int) = current.line + growthBefore index tree (tree.mapFrames change) := by
  have moved := Node.line_framesOfAll_renumberAll redocuments canonical.nodes.numbered 0 0
  rw [frames_eq, mapFrames] at inChanged
  rw [frames_eq, renumbered, mapFrames] at inNumbered
  have movedHere := congrArg (fun lines => lines[index]?) moved
  simp only [Int.sub_self, List.getElem?_map, inNumbered, Option.map_some] at movedHere
  obtain ⟨line, inLines, line_eq⟩ := getElem?_movedBy movedHere.symm
  rw [List.getElem?_map, inChanged, Option.map_some, Option.some.injEq] at inLines
  rw [line_eq, ← inLines, Int.add_zero, growthBefore, frames_eq, frames_eq, mapFrames,
    Node.growths]

/-- A settled tree is the same tree exactly if no construct has documentation behind a
header that runs on. -/
theorem withoutLines_settled_eq_iff {tree : Tree} :
    tree.settled.withoutLines = tree.withoutLines ↔
      ∀ frame ∈ tree.frames, ¬ (frame.hasDoc = true ∧ frame.runsOn = true) := by
  constructor
  · intro same frame present
    have frames_eq := congrArg frames same
    rw [withoutLines, withoutLines, settled, frames_mapFrames, frames_mapFrames,
      frames_mapFrames, List.map_map, List.map_inj_left] at frames_eq
    exact Frame.withoutLine_settled_eq_iff.mp (frames_eq frame present)
  · intro stands
    rw [settled_eq_self stands]

/-- An edited tree is read back as itself, line numbers apart, exactly if no construct has
documentation behind a header that runs on.  Every construct is then found as many lines
further down as the constructs in front of it have gained. -/
theorem parse_source_edit_iff
    {source : Text}
    {tree : Tree}
    (parsed : parse source = .ok tree)
    (steps : List (Nat × Text)) :
    let edited := tree.edit steps
    ((∃ reparsed, parse edited.source = .ok reparsed ∧
        reparsed.withoutLines = edited.withoutLines) ↔
      ¬ ∃ frame ∈ edited.frames, frame.hasDoc = true ∧ frame.runsOn = true) ∧
    ∀ reparsed, parse edited.source = .ok reparsed →
      reparsed.withoutLines = edited.withoutLines →
        ∀ (index : Nat) current found, edited.frames[index]? = some current →
          reparsed.frames[index]? = some found →
            (found.line : Int) = current.line + growthBefore index tree edited := by
  obtain ⟨change, redocuments, edit_eq⟩ := tree.edit_eq_mapFrames steps
  obtain ⟨canonical, -⟩ := parse_eq_ok_iff.mp parsed
  simp only [edit_eq, parse_source_mapFrames parsed redocuments, Except.ok.injEq,
    exists_eq_left', forall_eq', withoutLines_renumbered, withoutLines_settled_eq_iff]
  refine ⟨by simp only [not_exists, not_and], ?_⟩
  intro stands index current found inEdited inReparsed
  rw [settled_eq_self stands] at inReparsed
  exact line_renumbered_mapFrames canonical redocuments inEdited inReparsed

/-- The documentation of the module removed, and two lines written into the procedure. -/
def nestedSteps : List (Nat × Text) :=
  [(2, "Ends \"here\":\r\nend module m".toList), (0, [])]

/-- Edited so, the nested module is read back, and its procedure is found one line further
up.  With documentation in the type, whose header runs on, it is not. -/
theorem parse_source_edit_nestedTree :
    (∃ reparsed, parse (nestedTree.edit nestedSteps).source = .ok reparsed ∧
      reparsed.withoutLines = (nestedTree.edit nestedSteps).withoutLines ∧
        ∀ found, reparsed.frames[2]? = some found → found.line = 9) ∧
      ¬ ∃ reparsed, parse (nestedTree.edit [(1, ['t'])]).source = .ok reparsed ∧
        reparsed.withoutLines = (nestedTree.edit [(1, ['t'])]).withoutLines := by
  constructor
  · obtain ⟨readBack, moved⟩ := parse_source_edit_iff parse_nestedSource nestedSteps
    obtain ⟨reparsed, parsed, same⟩ := readBack.mpr (by decide +kernel)
    refine ⟨reparsed, parsed, same, ?_⟩
    intro found inReparsed
    obtain ⟨current, inEdited, placed⟩ :
        ∃ current, (nestedTree.edit nestedSteps).frames[2]? = some current ∧
          (current.line : Int) + growthBefore 2 nestedTree (nestedTree.edit nestedSteps) = 9 := by
      exact ⟨((nestedTree.edit nestedSteps).frames[2]?).get (by decide +kernel), by simp,
        by decide +kernel⟩
    have line_eq := moved reparsed parsed same 2 current found inEdited inReparsed
    omega
  · rw [(parse_source_edit_iff parse_nestedSource [(1, ['t'])]).1]
    decide +kernel

end Tree
end FortranDocs
