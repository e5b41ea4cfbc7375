import FortranDocs.Proofs.Tree.Numbering
import FortranDocs.Proofs.Tree.RoundTrip

/-!
# Reading a redocumented tree

A tree whose documentation blocks are rewritten has the code it had: what is written
opens nothing, closes nothing and is not the first line of any body.  Only a header that
runs on takes the first line written behind it for one of its own.
`Tree.parse_source_mapFrames` states what the text of such a tree is read into.
-/

namespace FortranDocs

namespace Line

/-- A line that documentation may be written as. -/
structure Written (line : Line) : Prop where
  /-- A reader takes it for documentation. -/
  documents : line.isDocumentation = true
  /-- It is one line. -/
  whole : '\n' ∉ line

/-- White space and the marker in front make a line of documentation. -/
theorem isDocumentation_of_marked
    {space : Line}
    (blank : space.all isSpace = true)
    (comment : Line) :
    isDocumentation (space ++ '!' :: comment) = true := by
  have marked_eq : space ++ '!' :: comment = (space ++ ['!']) ++ comment := by
    simp
  rw [isDocumentation_eq_isComment, isComment_iff, marked_eq,
    Text.withoutReturn_append (by simp)]
  exact ⟨space, Text.withoutReturn comment, blank, by simp⟩

/-- Lines that differ by written lines alone: a reader finds the same first line, the
same indentation and no more code. -/
structure SameCode (before after : List Line) : Prop where
  /-- The first line is the same. -/
  first : after.head? = before.head?
  /-- The first line that is not blank is the same. -/
  solid : after.find? (fun line => !line.isBlank) = before.find? (fun line => !line.isBlank)
  /-- What is new is written. -/
  added : ∀ line ∈ after, line ∈ before ∨ line.Written

namespace SameCode

variable {before after : List Line}

theorem refl (lines : List Line) : SameCode lines lines where
  first := rfl
  solid := rfl
  added := fun _ present => .inl present

theorem append_left (same : SameCode before after) (front : List Line) :
    SameCode (front ++ before) (front ++ after) where
  first := by rw [List.head?_append, List.head?_append, same.first]
  solid := by rw [List.find?_append, List.find?_append, same.solid]
  added := by
    intro line present
    rcases List.mem_append.mp present with inFront | inAfter
    · exact .inl (List.mem_append_left before inFront)
    · exact (same.added line inAfter).imp_left (List.mem_append_right front)

/-- Behind a line that is not blank only the added lines matter. -/
theorem cons
    {line : Line}
    (isSolid : line.isBlank = false)
    (added : ∀ candidate ∈ after, candidate ∈ before ∨ candidate.Written) :
    SameCode (line :: before) (line :: after) where
  first := rfl
  solid := by simp [isSolid]
  added := by
    intro candidate present
    rcases List.mem_cons.mp present with rfl | inAfter
    · exact .inl List.mem_cons_self
    · exact (added candidate inAfter).imp_left (List.mem_cons_of_mem line)

theorem indentOf_eq (same : SameCode before after) : indentOf after = indentOf before := by
  rw [indentOf, indentOf, same.solid]

theorem eq_nil (same : SameCode [] after) : after = [] :=
  List.head?_eq_none_iff.mp same.first

/-- No line closes a kind if none did before. -/
theorem closes_eq_false
    {kind : Kind}
    (same : SameCode before after)
    (unclosed : ∀ line ∈ before, kind.closes line = false) :
    ∀ line ∈ after, kind.closes line = false := by
  intro line present
  rcases same.added line present with inBefore | written
  · exact unclosed line inBefore
  · exact (codeless_of_isDocumentation written.documents).closes_eq_false kind

end SameCode
end Line

namespace Frame

/-- The last header line is continued, so that a reader takes whatever follows it for a
header line. -/
def runsOn (frame : Frame) : Bool :=
  (frame.headerLines.getLast (List.cons_ne_nil _ _)).isContinued

/-- The frame that a reader makes of the lines of a frame: a header that runs on takes
in the first documentation line. -/
def settled (frame : Frame) : Frame :=
  match frame.doc with
  | [] => frame
  | first :: others =>
      if frame.runsOn then
        { frame with continuation := frame.continuation ++ [first], doc := others }
      else
        frame

/-- Two frames differ by written documentation alone. -/
structure Redocumented (before after : Frame) : Prop where
  /-- Everything else is the same. -/
  frame_eq : after = { before with doc := after.doc }
  /-- The documentation is the same or written. -/
  doc : after.doc = before.doc ∨ ∀ line ∈ after.doc, line.Written

namespace Redocumented

theorem refl (frame : Frame) : frame.Redocumented frame where
  frame_eq := rfl
  doc := .inl rfl

end Redocumented

/-- Documentation is written as lines that a reader takes for documentation, whatever it
says. -/
theorem written_of_mem_writeDoc
    {doc : Text}
    {frame : Frame}
    {line : Line}
    (present : line ∈ (frame.writeDoc doc).doc) :
    line.Written := by
  obtain ⟨content, inDoc, rfl⟩ := List.mem_map.mp present
  have noLineFeed := Text.lineFeed_not_mem_of_mem_lines inDoc
  refine ⟨?_, ?_⟩
  · rw [commented, List.append_assoc, List.cons_append]
    exact Line.isDocumentation_of_marked (Text.all_isSpace_indent frame.indent) _
  · cases endsAs : frame.lineEnding with
    | lineFeed => simp [commented, endsAs, LineEnding.tail, noLineFeed]
    | returnLineFeed => simp [commented, endsAs, LineEnding.tail, noLineFeed]

theorem redocumented_writeDoc (doc : Text) (frame : Frame) :
    frame.Redocumented (frame.writeDoc doc) where
  frame_eq := rfl
  doc := .inr fun _ present => written_of_mem_writeDoc present

theorem headerLines_settled_append_doc (frame : Frame) :
    frame.settled.headerLines ++ frame.settled.doc = frame.headerLines ++ frame.doc := by
  unfold settled
  split
  · rfl
  · next first others doc_eq =>
      split
      · simp [headerLines, doc_eq]
      · rfl

/-- The text in front of the body is the same. -/
theorem header_settled_append_docBlock (frame : Frame) :
    frame.settled.header ++ '\n' :: frame.settled.docBlock =
      frame.header ++ '\n' :: frame.docBlock := by
  unfold settled
  split
  · rfl
  · next first others doc_eq =>
      split
      · have hasHeader : frame.headerLines ≠ [] := List.cons_ne_nil _ _
        have header_eq :
            Text.joinLines (frame.opener :: (frame.continuation ++ [first])) =
              Text.joinLines frame.headerLines ++ '\n' :: first := by
          rw [← List.cons_append, ← headerLines,
            Text.joinLines_append hasHeader (List.cons_ne_nil _ _), Text.joinLines_singleton]
        simp [header, headerLines, docBlock, doc_eq, header_eq]
      · rfl

@[simp] theorem closing_settled (frame : Frame) : frame.settled.closing = frame.closing := by
  unfold settled
  split
  · rfl
  · split <;> rfl

theorem withoutLine_settled (frame : Frame) :
    frame.settled.withoutLine = frame.withoutLine.settled := by
  have doc_eq : frame.withoutLine.doc = frame.doc := rfl
  have runsOn_eq : frame.withoutLine.runsOn = frame.runsOn := rfl
  rw [settled, settled, doc_eq, runsOn_eq]
  split
  · rfl
  · split
    · rfl
    · rfl

/-- A frame is read back as it is unless it has documentation behind a header that runs
on. -/
theorem withoutLine_settled_eq_iff {frame : Frame} :
    frame.settled.withoutLine = frame.withoutLine ↔
      ¬ (frame.hasDoc = true ∧ frame.runsOn = true) := by
  unfold settled
  split
  · next noDoc => simp [hasDoc, noDoc]
  · next first others doc_eq =>
      split
      · next runsOn =>
          simp [hasDoc, doc_eq, runsOn, withoutLine]
      · next ends =>
          simp [ends]

theorem settled_of_runsOn
    {frame : Frame}
    {first : Line}
    {others : List Line}
    (runsOn : frame.runsOn = true)
    (doc_eq : frame.doc = first :: others) :
    frame.settled =
      { frame with continuation := frame.continuation ++ [first], doc := others } := by
  simp only [settled, doc_eq, runsOn, if_true]

theorem settled_eq_self {frame : Frame} (stands : ¬ (frame.hasDoc = true ∧ frame.runsOn = true)) :
    frame.settled = frame := by
  unfold settled
  split
  · rfl
  · next first others doc_eq =>
      rw [if_neg]
      intro runsOn
      exact stands ⟨by simp [hasDoc, doc_eq], runsOn⟩

namespace WellCut

variable {frame : Frame} {body newBody doc : List Line}

/-- Behind a header that ends by itself any documentation may stand. -/
theorem withDoc
    (cut : frame.WellCut body)
    (ends : frame.runsOn = false)
    (documents : ∀ line ∈ doc, line.isDocumentation = true)
    (same : Line.SameCode body newBody) :
    { frame with doc }.WellCut newBody where
  opened := cut.opened
  parts :=
    { continued := cut.parts.continued
      ended := by
        intro lastContinued
        exact absurd (ends.symm.trans lastContinued) Bool.false_ne_true
      documents
      bodyStart := same.first ▸ cut.parts.bodyStart }
  unclosed := by
    rw [List.forall_mem_append]
    constructor
    · intro line present
      exact cut.unclosed line (List.mem_append_left body present)
    · apply same.closes_eq_false
      intro line present
      exact cut.unclosed line (List.mem_append_right _ present)
  closed := cut.closed
  indent := cut.indent.trans same.indentOf_eq.symm

/-- A header that runs on may take in a documentation line, and ends with it. -/
theorem withHeaderLine
    {first : Line}
    (cut : frame.WellCut [])
    (runsOn : frame.runsOn = true)
    (firstDocuments : first.isDocumentation = true)
    (documents : ∀ line ∈ doc, line.isDocumentation = true) :
    { frame with continuation := frame.continuation ++ [first], doc }.WellCut [] := by
  have codeless := Line.codeless_of_isDocumentation firstDocuments
  exact
    { opened := cut.opened
      parts :=
        { continued := by
            intro line present
            rw [← List.cons_append, List.dropLast_concat] at present
            rw [← List.dropLast_append_getLast (List.cons_ne_nil _ _),
              List.mem_append, List.mem_singleton] at present
            rcases present with inFront | rfl
            · exact cut.parts.continued line inFront
            · exact runsOn
          ended := by
            intro lastContinued
            rw [List.getLast_cons (by simp), List.getLast_append_singleton,
              codeless.isContinued_eq_false] at lastContinued
            exact absurd lastContinued Bool.false_ne_true
          documents
          bodyStart := cut.parts.bodyStart }
      unclosed := by
        intro line present
        rw [List.append_nil, List.mem_append, List.mem_singleton] at present
        rcases present with inHeader | rfl
        · exact cut.unclosed line (List.mem_append_left _ inHeader)
        · exact codeless.closes_eq_false _
      closed := cut.closed
      indent := cut.indent }

/-- A frame whose documentation is rewritten, settled, is cut where a reader would cut it
around a body with the same code. -/
theorem settled
    {after : Frame}
    (cut : frame.WellCut body)
    (redocumented : frame.Redocumented after)
    (same : Line.SameCode body newBody) :
    after.settled.WellCut newBody := by
  obtain ⟨frame_eq, doc_eq⟩ := redocumented
  have documents : ∀ line ∈ after.doc, line.isDocumentation = true := by
    rcases doc_eq with kept | written
    · rw [kept]
      exact cut.parts.documents
    · intro line present
      exact (written line present).documents
  have runsOn_eq : after.runsOn = frame.runsOn := by
    rw [frame_eq]
    rfl
  cases runsOn : frame.runsOn with
  | false =>
      rw [settled_eq_self (by simp [runsOn_eq, runsOn]), frame_eq]
      exact cut.withDoc runsOn documents same
  | true =>
      -- Nothing stood behind such a header, so only what is written can follow it.
      obtain ⟨noDoc, rfl⟩ := cut.parts.ended runsOn
      obtain rfl := same.eq_nil
      cases writes : after.doc with
      | nil =>
          have after_eq : after = frame := by
            rw [frame_eq, writes, ← noDoc]
          rw [settled_eq_self (by simp [hasDoc, writes]), after_eq]
          exact cut
      | cons first others =>
          rw [writes] at documents
          obtain ⟨firstDocuments, othersDocument⟩ := List.forall_mem_cons.mp documents
          rw [settled_of_runsOn (runsOn_eq.trans runsOn) writes, frame_eq]
          exact cut.withHeaderLine runsOn firstDocuments othersDocument

end WellCut

end Frame

/-- A change of the frames of a tree that rewrites documentation alone. -/
def Redocuments (change : Nat -> Frame -> Frame) : Prop :=
  ∀ number (frame : Frame), frame.Redocumented (change number frame)

namespace Node

variable {change : Nat -> Frame -> Frame}

theorem head?_mapFramesOfAll (number : Nat) (nodes : List Node) :
    (mapFramesOfAll change number nodes).head?.map isText = nodes.head?.map isText := by
  cases nodes with
  | nil => simp
  | cons node rest => cases node <;> simp [isText]

theorem linesOfAll_mapFramesOfAll_settled (number : Nat) (nodes : List Node) :
    linesOfAll (mapFramesOfAll (fun _ => Frame.settled) number nodes) =
      linesOfAll nodes := by
  induction nodes using inductionAll generalizing number with
  | nil => simp
  | text lines rest restHypothesis => simp [linesOfAll, Node.lines, restHypothesis]
  | construct frame body rest bodyHypothesis restHypothesis =>
      rw [mapFramesOfAll_construct]
      simp only [linesOfAll, Node.lines, bodyHypothesis, restHypothesis,
        Frame.headerLines_settled_append_doc, Frame.closing_settled]

theorem sourcesOfAll_mapFramesOfAll_settled (number : Nat) (nodes : List Node) :
    sourcesOfAll (mapFramesOfAll (fun _ => Frame.settled) number nodes) =
      sourcesOfAll nodes := by
  induction nodes using inductionAll generalizing number with
  | nil => simp
  | text lines rest restHypothesis => simp [sourcesOfAll, source, restHypothesis]
  | construct frame body rest bodyHypothesis restHypothesis =>
      rw [mapFramesOfAll_construct]
      simp only [sourcesOfAll, source, isEmpty_mapFramesOfAll, bodyHypothesis,
        restHypothesis, Frame.header_settled_append_docBlock, Frame.closing_settled]

/-- Every frame of a well-cut sequence is cut around some body. -/
theorem exists_wellCut_of_mem_framesOfAll
    {nodes : List Node}
    {frame : Frame}
    (wellCut : WellCutAll nodes)
    (present : frame ∈ framesOfAll nodes) :
    ∃ body, frame.WellCut body := by
  induction nodes using inductionAll with
  | nil => simp at present
  | text lines rest restHypothesis =>
      simp only [WellCutAll] at wellCut
      rw [framesOfAll_text] at present
      exact restHypothesis wellCut.2.2 present
  | construct first body rest bodyHypothesis restHypothesis =>
      simp only [WellCutAll, WellCut] at wellCut
      obtain ⟨⟨frameCut, bodyCut⟩, -, restCut⟩ := wellCut
      rw [framesOfAll_construct, List.mem_cons, List.mem_append] at present
      rcases present with rfl | inBody | inRest
      · exact ⟨linesOfAll body, frameCut⟩
      · exact bodyHypothesis bodyCut inBody
      · exact restHypothesis restCut inRest

/-- A redocumented sequence of nodes has the code it had. -/
theorem sameCode_linesOfAll
    {nodes : List Node}
    (redocuments : Redocuments change)
    (wellCut : WellCutAll nodes)
    (number : Nat) :
    Line.SameCode (linesOfAll nodes) (linesOfAll (mapFramesOfAll change number nodes)) := by
  induction nodes using inductionAll generalizing number with
  | nil =>
      rw [mapFramesOfAll_nil]
      exact .refl _
  | text lines rest restHypothesis =>
      simp only [WellCutAll] at wellCut
      obtain ⟨-, -, restCut⟩ := wellCut
      rw [mapFramesOfAll_text]
      simp only [linesOfAll, Node.lines]
      exact (restHypothesis restCut number).append_left lines
  | construct frame body rest bodyHypothesis restHypothesis =>
      simp only [WellCutAll, WellCut] at wellCut
      obtain ⟨⟨frameCut, bodyCut⟩, -, restCut⟩ := wellCut
      have bodySame := bodyHypothesis bodyCut (number + 1)
      have restSame := restHypothesis restCut (number + 1 + countAll body)
      obtain ⟨frame_eq, doc_eq⟩ := redocuments number frame
      rw [mapFramesOfAll_construct, frame_eq]
      simp only [linesOfAll, Node.lines, Frame.headerLines, List.cons_append]
      apply Line.SameCode.cons (Line.isBlank_eq_false_of_openedBy frameCut.opened)
      intro line present
      simp only [List.mem_append] at present ⊢
      rcases present with (((inHeader | inDoc) | inBody) | closing) | inRest
      · exact .inl (.inl (.inl (.inl (.inl inHeader))))
      · rcases doc_eq with same | written
        · exact .inl (.inl (.inl (.inl (.inr (same ▸ inDoc)))))
        · exact .inr (written line inDoc)
      · exact (bodySame.added line inBody).imp_left fun before =>
          .inl (.inl (.inr before))
      · exact .inl (.inl (.inr closing))
      · exact (restSame.added line inRest).imp_left .inr

/-- A redocumented sequence of nodes, settled, is well cut. -/
theorem wellCutAll_settled
    {nodes : List Node}
    (redocuments : Redocuments change)
    (wellCut : WellCutAll nodes)
    (number : Nat) :
    WellCutAll
      (mapFramesOfAll (fun _ => Frame.settled) number
        (mapFramesOfAll change number nodes)) := by
  induction nodes using inductionAll generalizing number with
  | nil => rwa [mapFramesOfAll_nil, mapFramesOfAll_nil]
  | text lines rest restHypothesis =>
      simp only [WellCutAll] at wellCut
      obtain ⟨nodeCut, separated, restCut⟩ := wellCut
      rw [mapFramesOfAll_text, mapFramesOfAll_text]
      simp only [WellCutAll]
      refine ⟨nodeCut, ?_, restHypothesis restCut number⟩
      intro text
      refine isText_eq_false_of_head?_eq ?_ (separated text)
      rw [head?_mapFramesOfAll, head?_mapFramesOfAll]
  | construct frame body rest bodyHypothesis restHypothesis =>
      simp only [WellCutAll, WellCut] at wellCut
      obtain ⟨⟨frameCut, bodyCut⟩, -, restCut⟩ := wellCut
      rw [mapFramesOfAll_construct, mapFramesOfAll_construct, countAll_mapFramesOfAll]
      simp only [WellCutAll, WellCut, isText, linesOfAll_mapFramesOfAll_settled]
      refine ⟨⟨?_, bodyHypothesis bodyCut _⟩, by simp, restHypothesis restCut _⟩
      exact frameCut.settled (redocuments number frame)
        (sameCode_linesOfAll redocuments bodyCut (number + 1))

end Node

namespace Tree

/-- The tree that a reader makes of the lines of a tree, line numbers apart. -/
def settled (tree : Tree) : Tree :=
  tree.mapFrames fun _ => Frame.settled

theorem source_settled (tree : Tree) : tree.settled.source = tree.source := by
  rw [source, settled, mapFrames, Node.sourcesOfAll_mapFramesOfAll_settled, source]

theorem settled_eq_self
    {tree : Tree}
    (stands : ∀ frame ∈ tree.frames, ¬ (frame.hasDoc = true ∧ frame.runsOn = true)) :
    tree.settled = tree := by
  apply mapFrames_eq_self
  intro frame present
  exact Frame.settled_eq_self (stands frame present)

/-- No construct that was read has documentation behind a header that runs on. -/
theorem doc_eq_nil_of_runsOn
    {source : Text}
    {tree : Tree}
    {frame : Frame}
    (parsed : parse source = .ok tree)
    (present : frame ∈ tree.frames)
    (runsOn : frame.runsOn = true) :
    frame.doc = [] := by
  obtain ⟨canonical, -⟩ := parse_eq_ok_iff.mp parsed
  rw [frames_eq] at present
  obtain ⟨body, frameCut⟩ :=
    Node.exists_wellCut_of_mem_framesOfAll canonical.nodes.wellCut present
  exact (frameCut.parts.ended runsOn).1

/-- A redocumented tree is read back settled, with new line numbers. -/
theorem parse_source_mapFrames
    {source : Text}
    {tree : Tree}
    {change : Nat -> Frame -> Frame}
    (parsed : parse source = .ok tree)
    (redocuments : Redocuments change) :
    parse (tree.mapFrames change).source = .ok (tree.mapFrames change).settled.renumbered := by
  obtain ⟨canonical, -⟩ := parse_eq_ok_iff.mp parsed
  have wellCut := canonical.nodes.wellCut
  apply parse_eq_ok_iff.mpr
  refine ⟨?_, by rw [source_renumbered, source_settled]⟩
  apply canonical_renumbered
  · rw [Ne, ← List.isEmpty_iff, settled, mapFrames, Node.isEmpty_mapFramesOfAll, mapFrames,
      Node.isEmpty_mapFramesOfAll, List.isEmpty_iff]
    exact canonical.nonempty
  · exact Node.wellCutAll_settled redocuments wellCut 0
  · intro line present
    rw [lines, settled, mapFrames, Node.linesOfAll_mapFramesOfAll_settled] at present
    rcases (Node.sameCode_linesOfAll redocuments wellCut 0).added line present with
      before | written
    · exact canonical.whole line before
    · exact written.whole

/-- The lines of the text of a redocumented tree are the lines of the tree. -/
theorem splitLines_source_mapFrames
    {source : Text}
    {tree : Tree}
    {change : Nat -> Frame -> Frame}
    (parsed : parse source = .ok tree)
    (redocuments : Redocuments change) :
    Text.splitLines (tree.mapFrames change).source = (tree.mapFrames change).lines := by
  have read := parse_source_mapFrames parsed redocuments
  rw [← (parse_eq_ok_iff_lines.mp read).1, lines, renumbered, Node.linesOfAll_renumberAll,
    settled, mapFrames, Node.linesOfAll_mapFramesOfAll_settled, lines]

end Tree
end FortranDocs
