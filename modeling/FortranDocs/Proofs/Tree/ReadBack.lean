import FortranDocs.Proofs.Tree.Returns

/-!
# Documentation as it is read back

What is written into a construct is read back line by line from the text of its documentation
block.  `Frame.docText_writeDoc_iff` states when that is what was written: always where lines end
with a carriage return and a line feed, and otherwise exactly if no line that was written ends
with a carriage return, as it would be taken for a part of the line ending.
-/

namespace FortranDocs

namespace Text

/-- Changed lines make up the same text exactly if each is the line it was. -/
theorem joinLines_map_eq_self_iff
    {change : Line -> Line}
    {lines : List Line}
    (whole : ∀ line ∈ lines, '\n' ∉ line)
    (changedWhole : ∀ line ∈ lines, '\n' ∉ change line) :
    joinLines (lines.map change) = joinLines lines ↔ ∀ line ∈ lines, change line = line := by
  constructor
  · intro same
    by_cases none : lines = []
    · subst none
      simp
    · have cut := congrArg splitLines same
      rw [splitLines_joinLines (by simpa using none) (List.forall_mem_map.mpr changedWhole),
        splitLines_joinLines none whole] at cut
      apply List.map_inj_left.mp
      rw [cut, List.map_id']
  · intro same
    rw [List.map_congr_left same, List.map_id']

end Text

/-- What is left of a written line when the lines around it have a given ending: without a carriage
return in it a line ending takes in one at the end of the line. -/
def LineEnding.leaves : LineEnding -> Line -> Line
  | .lineFeed, line => Text.withoutReturn line
  | .returnLineFeed, line => line

namespace Frame

/-- A line of a documentation block, without its ending, freed of its indentation, its marker and
the one space behind the marker. -/
def unmarked (line : Line) : Line :=
  let behindMarker :=
    match Text.trimStart line with
    | '!' :: rest => rest
    | other => other
  match behindMarker with
  | ' ' :: rest => rest
  | other => other

/-- What the text of a documentation block says, line by line. -/
def saidIn (block : Text) : Text :=
  Text.joinLines ((Text.lines block).map unmarked)

theorem unmarked_indent_append (indent : Nat) (line : Line) :
    unmarked (List.replicate indent ' ' ++ '!' :: ' ' :: line) = line := by
  have blank := List.all_eq_true.mp (Text.all_isSpace_indent indent)
  rw [unmarked, Text.trimStart, List.dropWhile_append_of_pos blank,
    List.dropWhile_cons_of_neg (by decide)]
  rfl

/-- The text of a documentation block is read line by line. -/
theorem lines_docBlock {frame : Frame} (whole : ∀ line ∈ frame.doc, '\n' ∉ line) :
    Text.lines frame.docBlock = frame.doc.map Text.withoutReturn := by
  have block_eq : frame.docBlock = Text.joinLines (frame.doc ++ [[]]) := by
    rw [← Text.flatMap_terminated_append_joinLines frame.doc (List.cons_ne_nil [] []),
      Text.joinLines_singleton, List.append_nil, docBlock]
  have wholeAll : ∀ line ∈ frame.doc ++ [[]], '\n' ∉ line := by
    simpa [or_imp, forall_and] using whole
  rw [block_eq, Text.lines, Text.splitLines_joinLines (by simp) wholeAll,
    Text.terminatedLines_concat_nil]

theorem docText_eq_saidIn {frame : Frame} (whole : ∀ line ∈ frame.doc, '\n' ∉ line) :
    frame.docText = saidIn frame.docBlock := by
  rw [saidIn, lines_docBlock whole, List.map_map]
  rfl

/-- A written line is read back without what its ending takes in. -/
theorem uncommented_commented (frame : Frame) (line : Line) :
    uncommented (frame.commented line) = frame.lineEnding.leaves line := by
  have marked_eq : List.replicate frame.indent ' ' ++ '!' :: ' ' :: line =
      (List.replicate frame.indent ' ' ++ ['!', ' ']) ++ line := by
    simp
  have content_eq : Text.withoutReturn (frame.commented line) =
      List.replicate frame.indent ' ' ++ '!' :: ' ' :: frame.lineEnding.leaves line := by
    rw [commented, marked_eq]
    cases frame.lineEnding with
    | lineFeed =>
        rw [LineEnding.tail, List.append_nil, Text.withoutReturn_append (by simp)]
        simp [LineEnding.leaves]
    | returnLineFeed =>
        rw [← Line.withReturn, Line.withoutReturn_withReturn]
        simp [LineEnding.leaves]
  change unmarked (Text.withoutReturn (frame.commented line)) = _
  rw [content_eq, unmarked_indent_append]

theorem docText_writeDoc (frame : Frame) (doc : Text) :
    (frame.writeDoc doc).docText =
      Text.joinLines ((Text.lines doc).map frame.lineEnding.leaves) := by
  rw [docText, writeDoc, List.map_map]
  congr 1
  apply List.map_congr_left
  intro line _
  exact frame.uncommented_commented line

/-- What a construct says is what the text of its documentation block says, and it is what was
written, line by line, exactly if lines end with a carriage return and a line feed or no line that
was written ends with a carriage return. -/
theorem docText_writeDoc_iff (frame : Frame) (doc : Text) :
    (frame.writeDoc doc).docText = saidIn (frame.writeDoc doc).docBlock ∧
      ((frame.writeDoc doc).docText = Text.joinLines (Text.lines doc) ↔
        frame.lineEnding = .returnLineFeed ∨
          ∀ line ∈ Text.lines doc, line.getLast? ≠ some '\r') := by
  have whole : ∀ line ∈ Text.lines doc, '\n' ∉ line := by
    intro line present
    exact Text.lineFeed_not_mem_of_mem_lines present
  constructor
  · apply docText_eq_saidIn
    intro line present
    exact (written_of_mem_writeDoc present).whole
  · rw [docText_writeDoc]
    cases ending : frame.lineEnding with
    | lineFeed =>
        have leftWhole : ∀ line ∈ Text.lines doc, '\n' ∉ LineEnding.lineFeed.leaves line := by
          intro line present lineFeed
          exact whole line present ((Text.withoutReturn_sublist line).subset lineFeed)
        rw [Text.joinLines_map_eq_self_iff whole leftWhole]
        simp only [LineEnding.leaves, Text.withoutReturn_eq_self_iff, reduceCtorEq, false_or]
    | returnLineFeed =>
        have kept : LineEnding.returnLineFeed.leaves = id := rfl
        rw [kept, List.map_id]
        exact iff_of_true rfl (.inl rfl)

/-- A carriage return at the end of the last line is lost where lines end with a line feed. -/
example (frame : Frame) (ending : frame.lineEnding = .lineFeed) :
    (frame.writeDoc "  one\r\n! two\r".toList).docText = "  one\n! two".toList := by
  rw [docText_writeDoc, ending]
  decide

end Frame
end FortranDocs
