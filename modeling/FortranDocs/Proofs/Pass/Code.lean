import FortranDocs.Proofs.Pass.Course
import FortranDocs.Proofs.Tree.Redocumenting

/-!
# Code under documentation

A documentation pass writes comment lines and removes comment lines, whatever the engine
answers.  `Tree.document_keeps_code` states that all other lines stay, in their order, and
that without overwriting no line is lost at all.
-/

namespace FortranDocs

namespace Line

/-- A line that begins with spaces or none, the comment marker and a space. -/
def IsRemark (line : Line) : Prop :=
  ∃ indent comment, line = List.replicate indent ' ' ++ '!' :: ' ' :: comment

/-- Remarks are added to lines, which stay in their order. -/
def Annotated (before after : List Line) : Prop :=
  ∃ added, before.Sublist after ∧ after.Perm (before ++ added) ∧ ∀ line ∈ added, line.IsRemark

namespace Annotated

theorem refl (lines : List Line) : Annotated lines lines :=
  ⟨[], List.Sublist.refl lines, by simp, by simp⟩

theorem of_remarks {added : List Line} (remarks : ∀ line ∈ added, line.IsRemark) :
    Annotated [] added :=
  ⟨added, List.nil_sublist added, List.Perm.refl added, remarks⟩

theorem append
    {front newFront back newBack : List Line}
    (inFront : Annotated front newFront)
    (inBack : Annotated back newBack) :
    Annotated (front ++ back) (newFront ++ newBack) := by
  obtain ⟨addedFront, frontSublist, frontPerm, frontRemarks⟩ := inFront
  obtain ⟨addedBack, backSublist, backPerm, backRemarks⟩ := inBack
  refine ⟨addedFront ++ addedBack, frontSublist.append backSublist, ?_, ?_⟩
  · have swapped : (addedFront ++ (back ++ addedBack)).Perm
        (back ++ (addedFront ++ addedBack)) := by
      exact List.perm_append_comm_assoc addedFront back addedBack
    have perm := frontPerm.append backPerm
    rw [List.append_assoc] at perm ⊢
    exact perm.trans (swapped.append_left front)
  · exact List.forall_mem_append.mpr ⟨frontRemarks, backRemarks⟩

end Annotated

/-- Documentation is not code. -/
theorem filter_eq_nil_of_documents
    {lines : List Line}
    (documents : ∀ line ∈ lines, line.isDocumentation = true) :
    lines.filter (fun line => !line.isComment) = [] := by
  rw [List.filter_eq_nil_iff]
  intro line present
  simp [← isDocumentation_eq_isComment, documents line present]

end Line

namespace Frame

/-- A frame without documentation gets some, or nothing is changed. -/
def Annotated (before after : Frame) : Prop :=
  after = before ∨ before.doc = [] ∧ ∃ doc, after = before.writeDoc doc

/-- Documentation is written as remarks. -/
theorem isRemark_of_mem_writeDoc
    {doc : Text}
    {frame : Frame}
    {line : Line}
    (present : line ∈ (frame.writeDoc doc).doc) :
    line.IsRemark := by
  obtain ⟨content, -, rfl⟩ := List.mem_map.mp present
  exact ⟨frame.indent, content ++ frame.lineEnding.tail, by simp [commented]⟩

theorem redocumented_decided (decisions : List (Option Text)) (number : Nat) (frame : Frame) :
    frame.Redocumented (frame.decided decisions number) := by
  unfold decided
  split
  · exact frame.redocumented_writeDoc _
  · exact .refl frame

end Frame

namespace Node

variable {change : Nat -> Frame -> Frame} {nodes : List Node}

/-- Only comment lines of a redocumented sequence of nodes are changed. -/
theorem filter_linesOfAll_mapFramesOfAll
    (redocuments : Redocuments change)
    (wellCut : WellCutAll nodes)
    (number : Nat) :
    (linesOfAll (mapFramesOfAll change number nodes)).filter (fun line => !line.isComment) =
      (linesOfAll nodes).filter fun line => !line.isComment := by
  induction nodes using inductionAll generalizing number with
  | nil => simp
  | text lines rest restHypothesis =>
      simp only [WellCutAll] at wellCut
      simp only [mapFramesOfAll_text, linesOfAll, List.filter_append,
        restHypothesis wellCut.2.2]
  | construct frame body rest bodyHypothesis restHypothesis =>
      simp only [WellCutAll, WellCut] at wellCut
      obtain ⟨⟨frameCut, bodyCut⟩, -, restCut⟩ := wellCut
      obtain ⟨frame_eq, doc_eq⟩ := redocuments number frame
      have noCode := Line.filter_eq_nil_of_documents frameCut.parts.documents
      have noNewCode :
          (change number frame).doc.filter (fun line => !line.isComment) = [] := by
        rcases doc_eq with same | written
        · rw [same, noCode]
        · exact Line.filter_eq_nil_of_documents fun line present =>
            (written line present).documents
      rw [mapFramesOfAll_construct, frame_eq]
      simp only [linesOfAll, Node.lines, Frame.headerLines, List.filter_append, noCode,
        noNewCode, bodyHypothesis bodyCut, restHypothesis restCut]

/-- Nodes whose constructs get documentation only where they have none keep all their lines. -/
theorem annotated_linesOfAll
    (annotates : ∀ number (frame : Frame), frame.Annotated (change number frame))
    (number : Nat)
    (nodes : List Node) :
    Line.Annotated (linesOfAll nodes) (linesOfAll (mapFramesOfAll change number nodes)) := by
  induction nodes using inductionAll generalizing number with
  | nil =>
      rw [mapFramesOfAll_nil]
      exact .refl _
  | text lines rest restHypothesis =>
      simp only [mapFramesOfAll_text, linesOfAll]
      exact Line.Annotated.append (.refl _) (restHypothesis number)
  | construct frame body rest bodyHypothesis restHypothesis =>
      have docAnnotated : Line.Annotated frame.doc (change number frame).doc := by
        rcases annotates number frame with same | ⟨noDoc, doc, written⟩
        · rw [same]
          exact .refl _
        · rw [noDoc, written]
          exact .of_remarks fun line present => Frame.isRemark_of_mem_writeDoc present
      have frame_eq : change number frame =
          { frame with doc := (change number frame).doc } := by
        rcases annotates number frame with same | ⟨-, doc, written⟩
        · rw [same]
        · rw [written]
          rfl
      rw [mapFramesOfAll_construct, frame_eq]
      simp only [linesOfAll, Node.lines]
      have inConstruct := (((Line.Annotated.refl frame.headerLines).append docAnnotated).append
        (bodyHypothesis (number + 1))).append (.refl [frame.closing])
      exact inConstruct.append (restHypothesis _)

end Node

/-- What a pass writes into is something it asked about. -/
theorem Engine.Passes.isDue_of_written
    {Memory : Type}
    {engine : Engine Memory}
    {overwrite : Bool}
    {constructs : List Construct}
    {memory : Memory}
    {course : Course Memory}
    {index : Nat}
    {doc : Text}
    {construct : Construct}
    (passes : engine.Passes overwrite constructs memory course)
    (written : course.decisions[index]? = some (some doc))
    (found : constructs[index]? = some construct) :
    construct.isDue overwrite = true := by
  induction passes generalizing index with
  | finished memory => simp at found
  | passedOver notDue onward inductionHypothesis =>
      cases index with
      | zero => simp at written
      | succ index => exact inductionHypothesis written found
  | unanswered due answers blank onward inductionHypothesis =>
      cases index with
      | zero => simp at written
      | succ index => exact inductionHypothesis written found
  | answered due answers solid onward inductionHypothesis =>
      cases index with
      | zero => exact Option.some.inj found ▸ due
      | succ index => exact inductionHypothesis written found
  | failed due fails rest => simp at written

namespace Tree

/-- Without overwriting only constructs without documentation are changed. -/
theorem exists_annotates
    {Memory : Type}
    {engine : Engine Memory}
    {tree : Tree}
    {memory : Memory}
    {course : Course Memory}
    (passes : engine.Passes false (tree.constructs.map Prod.snd) memory course) :
    ∃ change : Nat -> Frame -> Frame,
      (∀ number (frame : Frame), frame.Annotated (change number frame)) ∧
        tree.mapFrames (Frame.decided course.decisions) = tree.mapFrames change := by
  let change (number : Nat) (frame : Frame) : Frame :=
    if frame.hasDoc then frame else frame.decided course.decisions number
  refine ⟨change, ?_, ?_⟩
  · intro number frame
    simp only [change]
    split
    · exact .inl rfl
    · next undocumented =>
        have noDoc : frame.doc = [] := by
          simpa [Frame.hasDoc] using undocumented
        unfold Frame.decided
        split
        · exact .inr ⟨noDoc, _, rfl⟩
        · exact .inl rfl
  · rw [mapFrames, mapFrames]
    congr 1
    apply Node.mapFramesOfAll_congr
    intro index frame found
    rw [← Node.map_constructsOfAll 0, List.getElem?_map] at found
    obtain ⟨shown, inTree, rfl⟩ := Option.map_eq_some_iff.mp found
    have inOrder : (tree.constructs.map Prod.snd)[index]? = some shown.2 := by
      rw [List.getElem?_map, constructs, inTree, Option.map_some]
    simp only [change, Nat.zero_add]
    split
    · next hasDoc =>
        unfold Frame.decided
        split
        · next doc written =>
            have due := passes.isDue_of_written written inOrder
            simp [Construct.isDue, hasDoc] at due
        · rfl
    · rfl

/-- A documentation pass keeps all lines that are not comment lines, whatever the engine
answers and wherever it fails.  Without overwriting it keeps all lines, and what it adds are
remarks. -/
theorem document_keeps_code
    {Memory : Type}
    {source : Text}
    {tree : Tree}
    (parsed : parse source = .ok tree)
    (engine : Engine Memory)
    (overwrite : Bool)
    (memory : Memory) :
    let out := (tree.document engine overwrite memory).1.source
    (Text.splitLines out).filter (fun line => !line.isComment) =
        (Text.splitLines source).filter (fun line => !line.isComment) ∧
      (overwrite = false → Line.Annotated (Text.splitLines source) (Text.splitLines out)) := by
  intro out
  obtain ⟨course, pass, document_eq, passes, -⟩ := tree.document_eq engine overwrite memory
  obtain ⟨lines_eq, canonical⟩ := parse_eq_ok_iff_lines.mp parsed
  have redocuments : Redocuments (Frame.decided course.decisions) :=
    Frame.redocumented_decided course.decisions
  have out_eq : Text.splitLines out =
      (tree.mapFrames (Frame.decided course.decisions)).lines := by
    simp only [out, document_eq]
    exact splitLines_source_mapFrames parsed redocuments
  rw [out_eq, ← lines_eq]
  constructor
  · exact Node.filter_linesOfAll_mapFramesOfAll redocuments canonical.wellCut 0
  · rintro rfl
    obtain ⟨change, annotates, same⟩ := exists_annotates passes
    rw [same]
    exact Node.annotated_linesOfAll annotates 0 tree.nodes

/-- The type in the nested module gets a closing line and a continued line for its
documentation before the engine fails at the procedure. -/
theorem document_keeps_code_nestedTree :
    let run := nestedTree.document Engine.prepared false
      [.ok "Ends\rhere:\r\nend module m &".toList, .error (Failure.root "no answer")]
    let out := run.1.source
    run.2.2.isSome = true ∧ out ≠ nestedSource ∧
      (Text.splitLines out).filter (fun line => !line.isComment) =
        (Text.splitLines nestedSource).filter (fun line => !line.isComment) ∧
      Line.Annotated (Text.splitLines nestedSource) (Text.splitLines out) := by
  intro run out
  obtain ⟨code, annotated⟩ := document_keeps_code parse_nestedSource Engine.prepared false
    [.ok "Ends\rhere:\r\nend module m &".toList, .error (Failure.root "no answer")]
  exact ⟨by decide +kernel, by decide +kernel, code, annotated rfl⟩

end Tree
end FortranDocs
