import FortranDocs.Proofs.Pass.Code
import FortranDocs.Proofs.Tree.Alike

/-!
# Carriage returns in front of line feeds

A source gets other line endings when a carriage return is put in front of every line feed.
Then every line but the last one ends with a carriage return, and a reader takes the lines
alike.  `Tree.parse_withReturns` states that such a source is read into the same tree with
the carriage returns in it, and `Tree.source_withReturns_mapFrames` that this is so as well
when documentation is written into both trees.
-/

namespace FortranDocs

/-- The text with a carriage return in front of every line feed. -/
def Text.withReturns (text : Text) : Text :=
  text.flatMap fun character =>
    if character = '\n' then LineEnding.returnLineFeed.text else [character]

namespace Line

/-- The line with a carriage return at its end. -/
def withReturn (line : Line) : Line :=
  line ++ LineEnding.returnLineFeed.tail

/-- Lines with a carriage return at the end of each, but not of a last one that no further
line follows. -/
def withReturns (followed : Bool) : List Line -> List Line
  | [] => []
  | line :: rest =>
      (if followed || !rest.isEmpty then line.withReturn else line) ::
        withReturns followed rest

@[simp] theorem isEmpty_withReturns (followed : Bool) (lines : List Line) :
    (withReturns followed lines).isEmpty = lines.isEmpty := by
  cases lines <;> rfl

theorem withReturns_true (lines : List Line) :
    withReturns true lines = lines.map withReturn := by
  induction lines with
  | nil => rfl
  | cons line rest inductionHypothesis => simp [withReturns, inductionHypothesis]

theorem lineFeed_not_mem_of_mem_withReturns
    {lines : List Line}
    (whole : ∀ line ∈ lines, '\n' ∉ line)
    (followed : Bool) :
    ∀ line ∈ withReturns followed lines, '\n' ∉ line := by
  induction lines with
  | nil => exact whole
  | cons line rest inductionHypothesis =>
      rw [withReturns, List.forall_mem_cons]
      rw [List.forall_mem_cons] at whole
      refine ⟨?_, inductionHypothesis whole.2⟩
      split
      · simpa [withReturn, LineEnding.tail] using whole.1
      · exact whole.1

theorem withReturns_append (followed : Bool) (front back : List Line) :
    withReturns followed (front ++ back) =
      withReturns (followed || !back.isEmpty) front ++ withReturns followed back := by
  induction front with
  | nil => rfl
  | cons line rest inductionHypothesis =>
      have empty_eq : (rest ++ back).isEmpty = (rest.isEmpty && back.isEmpty) := by
        cases rest <;> simp
      simp only [List.cons_append, withReturns, inductionHypothesis, empty_eq, Bool.not_and,
        Bool.or_assoc, Bool.or_comm (!rest.isEmpty)]

/-! ## Lines that are taken alike -/

/-- A carriage return that was put at the end of a line is left out again. -/
theorem withoutReturn_withReturn (line : Line) :
    Text.withoutReturn line.withReturn = line := by
  simp [Text.withoutReturn, withReturn, LineEnding.tail]

theorem withoutReturn_of_not_mem {line : Line} (plain : '\r' ∉ line) :
    Text.withoutReturn line = line := by
  rw [Text.withoutReturn_eq_self_iff]
  intro last
  exact plain (List.mem_of_getLast? last)

theorem Alike.refl (line : Line) : line.Alike line where
  openedBy_eq := rfl
  closes_eq := fun _ => rfl
  isContinued_eq := rfl
  isDocumentation_eq := rfl
  isBlank_eq := rfl
  indentWidth_eq := rfl

theorem indentWidth_withReturn (line : Line) : line.withReturn.indentWidth = line.indentWidth := by
  rw [indentWidth, indentWidth, withReturn, List.takeWhile_append]
  split
  · next allSpaces =>
      have line_eq := (List.takeWhile_prefix (· == ' ')).eq_of_length allSpaces
      rw [line_eq]
      simp [LineEnding.tail]
  · rfl

/-- A carriage return at the end of a line is no part of what a reader looks at. -/
theorem alike_withReturn {line : Line} (plain : '\r' ∉ line) : line.Alike line.withReturn := by
  have content_eq : Text.withoutReturn line.withReturn = Text.withoutReturn line := by
    rw [withoutReturn_withReturn, withoutReturn_of_not_mem plain]
  have code_eq : line.code = line.withReturn.code := by
    rw [code, code, content_eq]
  exact
    { toCutsAlike := cutsAlike_of_code_eq code_eq
      isDocumentation_eq := by
        simp only [isDocumentation, isBlank, isComment, content_eq]
      isBlank_eq := by
        simp only [isBlank, content_eq]
      indentWidth_eq := (indentWidth_withReturn line).symm }

theorem alike_withReturns
    {lines : List Line}
    (plain : ∀ line ∈ lines, '\r' ∉ line)
    (followed : Bool) :
    List.Forall₂ Alike lines (withReturns followed lines) := by
  induction lines with
  | nil => exact .nil
  | cons line rest inductionHypothesis =>
      rw [List.forall_mem_cons] at plain
      refine .cons ?_ (inductionHypothesis plain.2)
      split
      · exact alike_withReturn plain.1
      · exact .refl line

end Line

namespace Text

theorem withReturns_of_not_mem {text : Text} (plain : '\n' ∉ text) :
    withReturns text = text := by
  induction text with
  | nil => rfl
  | cons character rest inductionHypothesis =>
      rw [List.mem_cons, not_or] at plain
      have rest_eq := inductionHypothesis plain.2
      rw [withReturns] at rest_eq ⊢
      rw [List.flatMap_cons, rest_eq, if_neg (Ne.symm plain.1), List.singleton_append]

/-- Line by line, all but the last line get a carriage return. -/
theorem withReturns_joinLines
    {lines : List Line}
    (whole : ∀ line ∈ lines, '\n' ∉ line) :
    withReturns (joinLines lines) = joinLines (Line.withReturns false lines) := by
  induction lines with
  | nil => rfl
  | cons line rest inductionHypothesis =>
      rw [List.forall_mem_cons] at whole
      have line_eq := withReturns_of_not_mem whole.1
      cases rest with
      | nil => simpa [Line.withReturns] using line_eq
      | cons next others =>
          have rest_eq := inductionHypothesis whole.2
          have nonempty : Line.withReturns false (next :: others) ≠ [] := by
            simp [Line.withReturns]
          rw [Line.withReturns, joinLines_cons _ (List.cons_ne_nil _ _),
            joinLines_cons _ nonempty, ← rest_eq]
          rw [withReturns] at line_eq ⊢
          rw [List.flatMap_append, line_eq]
          simp [Line.withReturn, LineEnding.text, LineEnding.tail, withReturns]

/-- A text holds the characters of its lines. -/
theorem mem_joinLines
    {lines : List Line}
    {line : Line}
    {character : Char}
    (present : line ∈ lines)
    (inLine : character ∈ line) :
    character ∈ joinLines lines := by
  induction lines with
  | nil => simp at present
  | cons first rest inductionHypothesis =>
      cases rest with
      | nil =>
          rw [List.mem_singleton.mp present] at inLine
          simpa using inLine
      | cons next others =>
          rw [joinLines_cons _ (List.cons_ne_nil _ _), List.mem_append, List.mem_cons]
          rcases List.mem_cons.mp present with rfl | inRest
          · exact .inl inLine
          · exact .inr (.inr (inductionHypothesis inRest))

theorem not_mem_of_mem_splitLines
    {text : Text}
    {character : Char}
    (absent : character ∉ text) :
    ∀ line ∈ splitLines text, character ∉ line := by
  intro line present inLine
  have inText := mem_joinLines present inLine
  rw [joinLines_splitLines] at inText
  exact absent inText

theorem splitLines_withReturns (text : Text) :
    splitLines (withReturns text) = Line.withReturns false (splitLines text) := by
  have whole : ∀ line ∈ splitLines text, '\n' ∉ line :=
    fun _ => lineFeed_not_mem_of_mem_splitLines
  have text_eq := withReturns_joinLines whole
  rw [joinLines_splitLines] at text_eq
  rw [text_eq]
  apply splitLines_joinLines
  · rw [Ne, ← List.isEmpty_iff, Line.isEmpty_withReturns, List.isEmpty_iff]
    exact splitLines_ne_nil text
  · exact Line.lineFeed_not_mem_of_mem_withReturns whole false

end Text

namespace Frame

/-- The frame with carriage returns at the end of its lines; the closing line gets none if no
further line follows it. -/
def withReturns (followed : Bool) (frame : Frame) : Frame :=
  { frame with
    opener := frame.opener.withReturn
    continuation := frame.continuation.map Line.withReturn
    doc := frame.doc.map Line.withReturn
    closing := if followed then frame.closing.withReturn else frame.closing }

theorem alike_withReturns
    {frame : Frame}
    (plainHeader : ∀ line ∈ frame.headerLines, '\r' ∉ line)
    (plainDoc : ∀ line ∈ frame.doc, '\r' ∉ line)
    (plainClosing : '\r' ∉ frame.closing)
    (followed : Bool) :
    frame.Alike (frame.withReturns followed) where
  kind := rfl
  line := rfl
  opener := Line.alike_withReturn (plainHeader _ List.mem_cons_self)
  continuation := by
    have alike := Line.alike_withReturns
      (fun line present => plainHeader line (List.mem_cons_of_mem _ present)) true
    rwa [Line.withReturns_true] at alike
  doc := by
    have alike := Line.alike_withReturns plainDoc true
    rwa [Line.withReturns_true] at alike
  closing := by
    cases followed with
    | false => exact .refl _
    | true => exact Line.alike_withReturn plainClosing
  indent := rfl

/-- Documentation is written with the line ending of the first header line. -/
theorem withReturns_writeDoc
    {frame : Frame}
    (plain : '\r' ∉ frame.opener)
    (followed : Bool)
    (doc : Text) :
    (frame.withReturns followed).writeDoc doc = (frame.writeDoc doc).withReturns followed := by
  have ending_eq : frame.lineEnding = .lineFeed := by
    rw [lineEnding, LineEnding.ofLine, if_neg]
    intro last
    exact plain (List.mem_of_getLast? last)
  have returnEnding_eq : (frame.withReturns followed).lineEnding = .returnLineFeed := by
    simp [lineEnding, LineEnding.ofLine, withReturns, Line.withReturn, LineEnding.tail]
  have commented_eq (line : Line) :
      (frame.withReturns followed).commented line = (frame.commented line).withReturn := by
    rw [commented, commented, ending_eq, returnEnding_eq]
    simp [withReturns, Line.withReturn, LineEnding.tail]
  simp only [writeDoc, withReturns, List.map_map, Frame.mk.injEq, true_and, and_true]
  apply List.map_congr_left
  intro line _
  exact commented_eq line

theorem withReturns_decided
    {frame : Frame}
    (plain : '\r' ∉ frame.opener)
    (followed : Bool)
    (decisions : List (Option Text))
    (number : Nat) :
    (frame.withReturns followed).decided decisions number =
      (frame.decided decisions number).withReturns followed := by
  rw [decided, decided]
  split
  · exact withReturns_writeDoc plain followed _
  · rfl

end Frame

namespace Node

mutual

/-- The node with carriage returns at the end of its lines; its last line gets none if no
further line follows it. -/
def withReturns (followed : Bool) : Node -> Node
  | .text lines => .text (Line.withReturns followed lines)
  | .construct frame body =>
      .construct (frame.withReturns followed) (withReturnsAll true body)

/-- The same for a sequence of nodes. -/
def withReturnsAll (followed : Bool) : List Node -> List Node
  | [] => []
  | node :: rest =>
      node.withReturns (followed || !rest.isEmpty) :: withReturnsAll followed rest

end

theorem countAll_withReturnsAll (followed : Bool) (nodes : List Node) :
    countAll (withReturnsAll followed nodes) = countAll nodes := by
  induction nodes using inductionAll generalizing followed with
  | nil => simp [withReturnsAll]
  | text lines rest restHypothesis =>
      simp [withReturnsAll, withReturns, countAll, count, restHypothesis]
  | construct frame body rest bodyHypothesis restHypothesis =>
      simp [withReturnsAll, withReturns, countAll, count, bodyHypothesis, restHypothesis]

theorem alikeAll_withReturnsAll
    {nodes : List Node}
    (plain : ∀ line ∈ linesOfAll nodes, '\r' ∉ line)
    (followed : Bool) :
    AlikeAll nodes (withReturnsAll followed nodes) := by
  induction nodes using inductionAll generalizing followed with
  | nil =>
      simp only [withReturnsAll]
      exact .nil
  | text lines rest restHypothesis =>
      simp only [linesOfAll, Node.lines, List.forall_mem_append] at plain
      simp only [withReturnsAll, withReturns]
      exact .text (Line.alike_withReturns plain.1 _) (restHypothesis plain.2 followed)
  | construct frame body rest bodyHypothesis restHypothesis =>
      simp only [linesOfAll, Node.lines, List.forall_mem_append, List.forall_mem_singleton]
        at plain
      obtain ⟨⟨⟨⟨header, doc⟩, bodyPlain⟩, closing⟩, restPlain⟩ := plain
      simp only [withReturnsAll, withReturns]
      exact .construct (Frame.alike_withReturns header doc closing _)
        (bodyHypothesis bodyPlain true) (restHypothesis restPlain followed)

/-- Carriage returns do not matter for what is written into the constructs. -/
theorem mapFramesOfAll_decided_withReturnsAll
    {nodes : List Node}
    (plain : ∀ line ∈ linesOfAll nodes, '\r' ∉ line)
    (followed : Bool)
    (decisions : List (Option Text))
    (number : Nat) :
    mapFramesOfAll (Frame.decided decisions) number (withReturnsAll followed nodes) =
      withReturnsAll followed (mapFramesOfAll (Frame.decided decisions) number nodes) := by
  induction nodes using inductionAll generalizing followed number with
  | nil => simp [withReturnsAll]
  | text lines rest restHypothesis =>
      simp only [linesOfAll, Node.lines, List.forall_mem_append] at plain
      simp only [withReturnsAll, withReturns, mapFramesOfAll_text, isEmpty_mapFramesOfAll,
        restHypothesis plain.2]
  | construct frame body rest bodyHypothesis restHypothesis =>
      simp only [linesOfAll, Node.lines, List.forall_mem_append] at plain
      obtain ⟨⟨⟨⟨header, -⟩, bodyPlain⟩, -⟩, restPlain⟩ := plain
      have opener : '\r' ∉ frame.opener := header _ List.mem_cons_self
      simp only [withReturnsAll, withReturns, mapFramesOfAll_construct, isEmpty_mapFramesOfAll,
        countAll_withReturnsAll, Frame.withReturns_decided opener, bodyHypothesis bodyPlain,
        restHypothesis restPlain]

theorem isEmpty_linesOfAll_mapFramesOfAll
    {change : Nat -> Frame -> Frame}
    {nodes : List Node}
    (wellCut : WellCutAll nodes)
    (number : Nat) :
    (linesOfAll (mapFramesOfAll change number nodes)).isEmpty = nodes.isEmpty := by
  cases nodes with
  | nil => simp [linesOfAll]
  | cons node rest =>
      simp only [WellCutAll] at wellCut
      cases node with
      | text lines =>
          have nonempty := wellCut.1
          simp only [WellCut] at nonempty
          simp [linesOfAll, Node.lines, nonempty.1]
      | construct frame body => simp [linesOfAll, Node.lines, Frame.headerLines]

/-- The lines of nodes with carriage returns, also when the frames were changed before. -/
theorem linesOfAll_withReturnsAll
    {change : Nat -> Frame -> Frame}
    {nodes : List Node}
    (wellCut : WellCutAll nodes)
    (followed : Bool)
    (number : Nat) :
    linesOfAll (withReturnsAll followed (mapFramesOfAll change number nodes)) =
      Line.withReturns followed (linesOfAll (mapFramesOfAll change number nodes)) := by
  induction nodes using inductionAll generalizing followed number with
  | nil => simp [withReturnsAll, linesOfAll, Line.withReturns]
  | text lines rest restHypothesis =>
      simp only [WellCutAll] at wellCut
      simp only [mapFramesOfAll_text, withReturnsAll, withReturns, linesOfAll, Node.lines,
        Line.withReturns_append, restHypothesis wellCut.2.2, isEmpty_mapFramesOfAll,
        isEmpty_linesOfAll_mapFramesOfAll wellCut.2.2]
  | construct frame body rest bodyHypothesis restHypothesis =>
      simp only [WellCutAll, WellCut] at wellCut
      obtain ⟨⟨-, bodyCut⟩, -, restCut⟩ := wellCut
      -- The closing line is the last one if no node follows; all lines before get a return.
      simp only [mapFramesOfAll_construct, withReturnsAll, withReturns, linesOfAll, Node.lines,
        Line.withReturns_append, restHypothesis restCut, bodyHypothesis bodyCut,
        isEmpty_mapFramesOfAll, isEmpty_linesOfAll_mapFramesOfAll restCut]
      simp [Line.withReturns, Line.withReturns_true, Frame.headerLines, Frame.withReturns]

end Node

namespace Tree

/-- The tree with a carriage return at the end of every line but the last one. -/
def withReturns (tree : Tree) : Tree where
  nodes := Node.withReturnsAll false tree.nodes

theorem plain_lines_of_parse
    {source : Text}
    {tree : Tree}
    (plain : '\r' ∉ source)
    (parsed : parse source = .ok tree) :
    ∀ line ∈ tree.lines, '\r' ∉ line := by
  rw [(parse_eq_ok_iff_lines.mp parsed).1]
  exact Text.not_mem_of_mem_splitLines plain

/-- A source with carriage returns is read into the tree with carriage returns, or it cannot be
read for the same reason. -/
theorem parse_withReturns
    {source : Text}
    (plain : '\r' ∉ source) :
    parse (Text.withReturns source) = (parse source).map withReturns := by
  cases parsed : parse source with
  | error error =>
      apply parse_eq_error_of_alike _ parsed
      rw [Text.splitLines_withReturns]
      exact Line.alike_withReturns (Text.not_mem_of_mem_splitLines plain) false
  | ok tree =>
      obtain ⟨lines_eq, canonical⟩ := parse_eq_ok_iff_lines.mp parsed
      have alike := Node.alikeAll_withReturnsAll (plain_lines_of_parse plain parsed) false
      have unchanged := Node.mapFramesOfAll_decided_nil 0 tree.nodes
      have returned_eq : tree.withReturns.lines = Line.withReturns false tree.lines := by
        rw [withReturns, lines, lines, ← unchanged]
        exact Node.linesOfAll_withReturnsAll canonical.wellCut false 0
      apply parse_eq_ok_iff_lines.mpr
      refine ⟨?_, alike.canonical canonical⟩
      rw [returned_eq, Text.splitLines_withReturns, lines_eq]

/-- Documentation written into a tree with carriage returns is that written into the tree, with
carriage returns. -/
theorem source_withReturns_mapFrames
    {source : Text}
    {tree : Tree}
    (plain : '\r' ∉ source)
    (parsed : parse source = .ok tree)
    (decisions : List (Option Text)) :
    (tree.withReturns.mapFrames (Frame.decided decisions)).source =
      Text.withReturns (tree.mapFrames (Frame.decided decisions)).source := by
  have redocuments : Redocuments (Frame.decided decisions) :=
    Frame.redocumented_decided decisions
  have returnedParsed : parse (Text.withReturns source) = .ok tree.withReturns := by
    rw [parse_withReturns plain, parsed]
    rfl
  have wellCut := (parse_eq_ok_iff_lines.mp parsed).2.wellCut
  have mapped_eq : tree.withReturns.mapFrames (Frame.decided decisions) =
      (tree.mapFrames (Frame.decided decisions)).withReturns := by
    rw [mapFrames, withReturns,
      Node.mapFramesOfAll_decided_withReturnsAll (plain_lines_of_parse plain parsed)]
    rfl
  have lines_eq : (tree.mapFrames (Frame.decided decisions)).withReturns.lines =
      Line.withReturns false (tree.mapFrames (Frame.decided decisions)).lines :=
    Node.linesOfAll_withReturnsAll wellCut false 0
  rw [← Text.joinLines_splitLines (tree.withReturns.mapFrames _).source,
    splitLines_source_mapFrames returnedParsed redocuments, mapped_eq, lines_eq,
    ← splitLines_source_mapFrames parsed redocuments, ← Text.splitLines_withReturns,
    Text.joinLines_splitLines]

end Tree
end FortranDocs
