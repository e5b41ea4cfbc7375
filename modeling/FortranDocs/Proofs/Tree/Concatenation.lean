import FortranDocs.Proofs.Tree.Cutting
import FortranDocs.Proofs.Tree.Frames

/-!
# Sources one behind the other

A reader never goes back: lines behind some lines that can be read leave the nodes of these
as they are, but for a text at the end of the one and a text at the start of the other, which
become one.  `Tree.parse_append` states so of two sources with a line feed between them.
-/

namespace FortranDocs

/-- A line feed between two texts ends the last line of the first. -/
theorem Text.splitLines_append (front back : Text) :
    splitLines (front ++ '\n' :: back) = splitLines front ++ splitLines back :=
  List.splitOn_append_cons_self front back

/-- The frame of a construct that has so many further lines in front of it. -/
def Frame.shift (count : Nat) (frame : Frame) : Frame :=
  { frame with line := frame.line + count }

namespace Node

/-! ## Further lines in front -/

/-- Nodes that have so many further lines in front of them. -/
def shiftAll (count : Nat) (nodes : List Node) : List Node :=
  mapFramesOfAll (fun _ => Frame.shift count) 0 nodes

@[simp] theorem shiftAll_nil (count : Nat) : shiftAll count [] = [] := by
  rw [shiftAll, mapFramesOfAll_nil]

@[simp] theorem shiftAll_text (count : Nat) (lines : List Line) (rest : List Node) :
    shiftAll count (.text lines :: rest) = .text lines :: shiftAll count rest := by
  rw [shiftAll, mapFramesOfAll_text, shiftAll]

@[simp] theorem shiftAll_construct
    (count : Nat)
    (frame : Frame)
    (body rest : List Node) :
    shiftAll count (.construct frame body :: rest) =
      .construct (frame.shift count) (shiftAll count body) :: shiftAll count rest := by
  have renumber (number : Nat) (nodes : List Node) :
      mapFramesOfAll (fun _ => Frame.shift count) number nodes = shiftAll count nodes :=
    mapFramesOfAll_congr fun _ _ _ => rfl
  rw [shiftAll, mapFramesOfAll_construct, renumber, renumber]

theorem shiftAll_textOf_append (count : Nat) (lines : List Line) (rest : List Node) :
    shiftAll count (textOf lines ++ rest) = textOf lines ++ shiftAll count rest := by
  cases lines with
  | nil => rfl
  | cons line others => exact shiftAll_text count (line :: others) rest

theorem assemble_shift
    (count : Nat)
    (before : List Line)
    (frame : Frame)
    (body rest : Except ParseError (List Node)) :
    assemble before (frame.shift count)
        ((body.map (shiftAll count)).mapError (ParseError.shift count))
        ((rest.map (shiftAll count)).mapError (ParseError.shift count)) =
      ((assemble before frame body rest).map (shiftAll count)).mapError
        (ParseError.shift count) := by
  cases body with
  | error error => rfl
  | ok body =>
      cases rest with
      | error error => rfl
      | ok rest =>
          simp only [assemble, Except.map, Except.mapError, shiftAll_textOf_append,
            shiftAll_construct]

/-- Further lines in front of some lines shift what is read from them, or the error. -/
theorem read_add (lines : List Line) (offset count : Nat) :
    read lines (offset + count) =
      ((read lines offset).map (shiftAll count)).mapError (ParseError.shift count) := by
  induction lines using cutInduction generalizing offset with
  | unopened lines unopened =>
      have shifted := shiftAll_textOf_append count lines []
      rw [List.append_nil, shiftAll_nil, List.append_nil] at shifted
      simp only [read_of_unopened unopened, Except.map, Except.mapError, shifted]
  | unended before opener following kind unopened opened unclosed =>
      simp only [read_of_unended unopened opened unclosed, Except.map, Except.mapError,
        ParseError.shift, Nat.add_right_comm _ count]
  | block split kind first bodyHypothesis afterHypothesis =>
      rw [read_lines first, read_lines first, ← assemble_shift, ← bodyHypothesis,
        ← afterHypothesis]
      simp only [Nat.add_right_comm _ count, Split.frame, Frame.shift]

/-! ## Further lines behind -/

/-- Nodes in front of others.  Where a last text meets a first one they become one. -/
def beside : (front back : List Node) -> List Node
  | [], back => back
  | [.text ending], .text beginning :: rest => .text (ending ++ beginning) :: rest
  | node :: front, back => node :: beside front back

theorem beside_nil (back : List Node) : beside [] back = back := by
  rw [beside]

/-- Opaque text in front of nodes is one text with that at their start. -/
theorem beside_textOf
    (ending beginning : List Line)
    (rest : List Node)
    (separated : ∀ next, rest.head? = some next → next.isText = false) :
    beside (textOf ending) (textOf beginning ++ rest) = textOf (ending ++ beginning) ++ rest := by
  cases ending with
  | nil => simp [textOf, beside]
  | cons line others =>
      cases beginning with
      | cons next more => simp [textOf, beside]
      | nil =>
          cases rest with
          | nil => simp [textOf, beside]
          | cons node nodes =>
              cases node with
              | text lines => exact absurd (separated (.text lines) rfl) (by simp [isText])
              | construct frame body => simp [textOf, beside]

/-- A construct keeps what stands in front of it apart from what comes behind it. -/
theorem beside_textOf_append_construct
    (before : List Line)
    (frame : Frame)
    (body rest back : List Node) :
    beside (textOf before ++ .construct frame body :: rest) back =
      textOf before ++ .construct frame body :: beside rest back := by
  cases before with
  | nil => simp [textOf, beside]
  | cons line others => simp [textOf, beside]

/-- Opaque text in front of a first construct is part of the text there. -/
theorem assemble_append
    (front before : List Line)
    (frame : Frame)
    (body rest : Except ParseError (List Node)) :
    assemble (front ++ before) frame body rest =
      (assemble before frame body rest).map (beside (textOf front)) := by
  cases body with
  | error error => rfl
  | ok body =>
      cases rest with
      | error error => rfl
      | ok rest =>
          have joined := beside_textOf front before (.construct frame body :: rest)
            (by simp [isText])
          simp only [assemble, Except.map, joined]

/-- Lines that open nothing become part of the text in front of what is read behind them. -/
theorem read_append_of_unopened
    {front : List Line}
    (unopened : ∀ line ∈ front, Kind.openedBy line = none)
    (back : List Line)
    (offset : Nat) :
    read (front ++ back) offset =
      (read back (offset + front.length)).map (beside (textOf front)) := by
  induction back using cutInduction with
  | unopened lines linesUnopened =>
      have joined := beside_textOf front lines [] (by simp)
      rw [List.append_nil, List.append_nil] at joined
      rw [read_of_unopened linesUnopened,
        read_of_unopened (List.forall_mem_append.mpr ⟨unopened, linesUnopened⟩), Except.map,
        joined]
  | unended before opener following kind beforeUnopened opened unclosed =>
      rw [← List.append_assoc, read_of_unended beforeUnopened opened unclosed,
        read_of_unended (List.forall_mem_append.mpr ⟨unopened, beforeUnopened⟩) opened unclosed,
        List.length_append, Except.map, Nat.add_assoc offset front.length]
  | block split kind first _ _ =>
      have start_eq : offset + (split.prepend front).before.length + 1 =
          offset + front.length + split.before.length + 1 := by
        simp only [Split.prepend, List.length_append, Nat.add_assoc]
      rw [← Split.lines_prepend, read_lines (first.prepend unopened), read_lines first, start_eq,
        Split.bodyStart_prepend, Split.afterStart_prepend, ← Nat.add_assoc, ← Nat.add_assoc,
        ← assemble_append]
      rfl

/-- What is read from some lines stays as it is in front of further lines, and these are read
as if they stood alone.  The induction is along the cuts of the first lines: each of their
blocks ends at its own first closing line, whatever comes behind. -/
theorem read_append
    {front : List Line}
    {offset : Nat}
    {nodes : List Node}
    (frontRead : read front offset = .ok nodes)
    (back : List Line) :
    read (front ++ back) offset =
      (read back (offset + front.length)).map (beside nodes) := by
  induction front using cutInduction generalizing offset nodes with
  | unopened lines unopened =>
      rw [read_of_unopened unopened] at frontRead
      obtain rfl := Except.ok.inj frontRead
      exact read_append_of_unopened unopened back offset
  | unended before opener following kind unopened opened unclosed =>
      rw [read_of_unended unopened opened unclosed] at frontRead
      cases frontRead
  | block split kind first bodyHypothesis afterHypothesis =>
      rw [read_lines first] at frontRead
      obtain ⟨body, rest, bodyRead, afterRead, rfl⟩ := assemble_eq_ok_iff.mp frontRead
      let longer : Split := { split with after := split.after ++ back }
      have lines_eq : split.lines ++ back = longer.lines := by
        simp [longer, Split.lines, Split.block]
      have length_eq : offset + split.lines.length =
          offset + split.afterStart + split.after.length := by
        simp only [Split.lines, Split.afterStart, List.length_append, Nat.add_assoc]
      rw [lines_eq, read_lines (first.append_right back)]
      have bodyAgain : read longer.interior.body (offset + longer.bodyStart) = .ok body := bodyRead
      have afterAgain : read longer.after (offset + longer.afterStart) =
          (read back (offset + split.lines.length)).map (beside rest) := by
        rw [length_eq]
        exact afterHypothesis afterRead
      rw [bodyAgain, afterAgain]
      cases read back (offset + split.lines.length) with
      | error error => rfl
      | ok others =>
          simp only [Except.map, assemble, beside_textOf_append_construct]
          rfl

end Node

namespace Tree

/-- The tree with so many further lines in front of its source. -/
def shift (count : Nat) (tree : Tree) : Tree :=
  tree.mapFrames fun _ => Frame.shift count

/-- The nodes of two trees, with a last text and a first one that meet as one text. -/
def beside (front back : Tree) : Tree where
  nodes := Node.beside front.nodes back.nodes

/-- A source that can be read keeps its nodes in front of any other, from which the nodes or
the error are those of the other read alone, moved down by the lines in front.  A last text
and a first one that meet are joined by a line feed. -/
theorem parse_append
    {front : Text}
    {tree : Tree}
    (parsed : parse front = .ok tree)
    (back : Text) :
    (parse (front ++ '\n' :: back) =
      match parse back with
      | .error error => .error (error.shift (Text.splitLines front).length)
      | .ok other => .ok (tree.beside (other.shift (Text.splitLines front).length))) ∧
    ∀ other ending beginning,
      parse back = .ok other →
        tree.nodes.getLast? = some (.text ending) →
          other.nodes.head? = some (.text beginning) →
            (Node.text (ending ++ beginning)).source =
              (Node.text ending).source ++ '\n' :: (Node.text beginning).source := by
  constructor
  · have frontRead := Node.read_eq_ok_iff.mpr (parse_eq_ok_iff_lines.mp parsed)
    rw [parse_eq_read, parse_eq_read, Text.splitLines_append, Node.read_append frontRead,
      Node.read_add]
    cases Node.read (Text.splitLines back) 0 with
    | error error => rfl
    | ok others => rfl
  · intro other ending beginning otherParsed last first
    have endingCut := (parse_eq_ok_iff.mp parsed).1.nodes.wellCut.of_mem
      (List.mem_of_getLast? last)
    have beginningCut := (parse_eq_ok_iff.mp otherParsed).1.nodes.wellCut.of_mem
      (List.mem_of_head? first)
    simp only [Node.WellCut] at endingCut beginningCut
    simp only [Node.source]
    exact Text.joinLines_append endingCut.1 beginningCut.1

/-- The nested module twice: the empty last line of the one and the comment in front of the
other are one text.  A type without an end behind the module is the error. -/
theorem parse_append_nestedTree :
    parse nestedSource = .ok nestedTree ∧
      (∃ twice, parse (nestedSource ++ '\n' :: nestedSource) = .ok twice ∧
        twice.nodes[2]? = some (.text [[], "! Notes\r".toList]) ∧
        twice.frames.map Frame.line = [2, 6, 10, 15, 19, 23]) ∧
      parse (nestedSource ++ '\n' :: "type t".toList) = .error (.endNotFound .type 14) := by
  have thirteen : (Text.splitLines nestedSource).length = 13 := by
    decide +kernel
  have unended : parse "type t".toList = .error (.endNotFound .type 1) := by
    decide +kernel
  have twice := (parse_append parse_nestedSource nestedSource).1
  have behind := (parse_append parse_nestedSource "type t".toList).1
  rw [thirteen, parse_nestedSource] at twice
  rw [thirteen, unended] at behind
  refine ⟨parse_nestedSource, ⟨_, twice, ?_, ?_⟩, behind⟩
  · decide +kernel
  · decide +kernel

end Tree
end FortranDocs
