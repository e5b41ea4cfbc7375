import FortranDocs.Proofs.Tree.Redocumenting

/-!
# A second run

The dummy engine documents a source, and the result is documented again.  The second run
reads text alone, so it finds the documentation of the first run exactly where a reader
takes it for documentation: not the line behind a header that runs up to its closing line.
-/

namespace FortranDocs

namespace Node

/-- A visitor that never stops and changes every frame as a given function does. -/
def Changes
    {State Failure : Type}
    (visitor : Visitor State Failure)
    (change : Frame -> Frame) :
    Prop :=
  ∀ depth (construct : Construct) state,
    (∃ next, visitor depth construct state = .keep next ∧
      change construct.toFrame = construct.toFrame) ∨
    ∃ doc next, visitor depth construct state = .write doc next ∧
      change construct.toFrame = construct.toFrame.writeDoc doc

/-- Such a visitor visits all constructs and changes them by the function. -/
theorem visitAll_of_changes
    {State Failure : Type}
    {visitor : Visitor State Failure}
    {change : Frame -> Frame}
    (changes : Changes visitor change)
    (depth number : Nat)
    (nodes : List Node)
    (state : State) :
    ∃ last, visitAll visitor depth nodes state =
      (mapFramesOfAll (fun _ => change) number nodes, last, none) := by
  induction nodes using inductionAll generalizing depth number state with
  | nil => exact ⟨state, by simp [visitAll]⟩
  | text lines rest restHypothesis =>
      obtain ⟨last, restVisited⟩ := restHypothesis depth number state
      exact ⟨last, by simp [visitAll, visit, restVisited]⟩
  | construct frame body rest bodyHypothesis restHypothesis =>
      rcases changes depth { toFrame := frame, body } state with
        ⟨next, shown, kept⟩ | ⟨doc, next, shown, written⟩
      · obtain ⟨between, bodyVisited⟩ := bodyHypothesis (depth + 1) (number + 1) next
        obtain ⟨last, restVisited⟩ :=
          restHypothesis depth (number + 1 + countAll body) between
        refine ⟨last, ?_⟩
        rw [mapFramesOfAll_construct, kept]
        simp only [visitAll, visit, shown, bodyVisited, restVisited]
      · obtain ⟨between, bodyVisited⟩ := bodyHypothesis (depth + 1) (number + 1) next
        obtain ⟨last, restVisited⟩ :=
          restHypothesis depth (number + 1 + countAll body) between
        refine ⟨last, ?_⟩
        rw [mapFramesOfAll_construct, written]
        simp only [visitAll, visit, shown, bodyVisited, restVisited]

end Node

namespace Frame

/-- The frame with documentation written into it, unless it has some that may not be
overwritten. -/
def documented (doc : Text) (overwrite : Bool) (frame : Frame) : Frame :=
  if frame.hasDoc && !overwrite then frame else frame.writeDoc doc

section Documented

variable {doc : Text} {overwrite : Bool} {frame : Frame}

theorem redocumented_documented (doc : Text) (overwrite : Bool) (frame : Frame) :
    frame.Redocumented (frame.documented doc overwrite) := by
  unfold documented
  split
  · exact .refl frame
  · exact frame.redocumented_writeDoc doc

theorem documented_of_hasDoc_eq_false (undocumented : frame.hasDoc = false) :
    frame.documented doc overwrite = frame.writeDoc doc := by
  simp [documented, undocumented]

theorem hasDoc_writeDoc (solid : Text.isBlank doc = false) :
    (frame.writeDoc doc).hasDoc = true := by
  simp [hasDoc, writeDoc, Text.lines_ne_nil_of_isBlank_eq_false solid]

theorem hasDoc_documented (solid : Text.isBlank doc = false) :
    (frame.documented doc overwrite).hasDoc = true := by
  unfold documented
  split
  · next kept =>
      rw [Bool.and_eq_true] at kept
      exact kept.1
  · exact hasDoc_writeDoc solid

/-- Documentation that was written is kept, or written again as it is. -/
theorem documented_documented (solid : Text.isBlank doc = false) :
    (frame.documented doc overwrite).documented doc overwrite =
      frame.documented doc overwrite := by
  cases overwrite with
  | false =>
      have hasDoc : (frame.documented doc false).hasDoc = true := hasDoc_documented solid
      rw [documented, hasDoc]
      rfl
  | true => simp [documented, writeDoc, commented, lineEnding]

theorem runsOn_documented : (frame.documented doc overwrite).runsOn = frame.runsOn := by
  rw [(redocumented_documented doc overwrite frame).frame_eq]
  rfl

theorem withoutLine_documented :
    (frame.documented doc overwrite).withoutLine =
      frame.withoutLine.documented doc overwrite := by
  have hasDoc_eq : frame.withoutLine.hasDoc = frame.hasDoc := rfl
  rw [documented, documented, hasDoc_eq]
  split
  · rfl
  · rfl

/-- A header that runs on takes in the first line that is written. -/
theorem settled_writeDoc_of_runsOn
    {first : Line}
    {others : List Line}
    (runsOn : frame.runsOn = true)
    (lines_eq : Text.lines doc = first :: others) :
    (frame.writeDoc doc).settled =
      { frame with
        continuation := frame.continuation ++ [frame.commented first]
        doc := others.map frame.commented } := by
  have doc_eq : (frame.writeDoc doc).doc =
      frame.commented first :: others.map frame.commented := by
    rw [writeDoc, lines_eq, List.map_cons]
  exact settled_of_runsOn runsOn doc_eq

theorem documented_eq_self_of_withoutLine_eq
    {other : Frame}
    (same : other.withoutLine = frame.withoutLine)
    (kept : other.documented doc overwrite = other) :
    frame.documented doc overwrite = frame := by
  apply eq_of_withoutLine_eq
  · rw [withoutLine_documented, ← same, ← withoutLine_documented, kept]
  · rw [(redocumented_documented doc overwrite frame).frame_eq]

/-- A frame that a first run leaves is kept by a second run if its header ends by
itself, or if documentation is left that may not be overwritten. -/
theorem second_run_keeps
    (solid : Text.isBlank doc = false)
    (endsOrEmpty : frame.runsOn = true → frame.doc = [])
    (keeps : frame.runsOn = false ∨ overwrite = false ∧ 2 ≤ (Text.lines doc).length) :
    let next := (frame.documented doc overwrite).settled
    next.documented doc overwrite = next ∧ next.hasDoc = true := by
  intro next
  cases runsOn : frame.runsOn with
  | false =>
      have next_eq : next = frame.documented doc overwrite :=
        settled_eq_self (by simp [runsOn_documented, runsOn])
      rw [next_eq]
      exact ⟨documented_documented solid, hasDoc_documented solid⟩
  | true =>
      obtain ⟨rfl, enough⟩ := keeps.resolve_left (by simp [runsOn])
      have undocumented : frame.hasDoc = false := by simp [hasDoc, endsOrEmpty runsOn]
      obtain ⟨first, second, others, lines_eq⟩ :
          ∃ first second others, Text.lines doc = first :: second :: others := by
        cases lines_eq : Text.lines doc with
        | nil => simp [lines_eq] at enough
        | cons first rest =>
            cases rest with
            | nil => simp [lines_eq] at enough
            | cons second others => exact ⟨first, second, others, rfl⟩
      have next_eq : next =
          { frame with
            continuation := frame.continuation ++ [frame.commented first]
            doc := frame.commented second :: others.map frame.commented } := by
        simp only [next, documented_of_hasDoc_eq_false undocumented]
        exact settled_writeDoc_of_runsOn runsOn lines_eq
      have hasDoc : next.hasDoc = true := by
        rw [next_eq]
        rfl
      refine ⟨?_, hasDoc⟩
      rw [documented, hasDoc]
      rfl

/-- Otherwise a second run changes the frame, or finds no documentation. -/
theorem second_run_changes
    (runsOn : frame.runsOn = true)
    (noDoc : frame.doc = [])
    (solid : Text.isBlank doc = false)
    (changes : ¬ (overwrite = false ∧ 2 ≤ (Text.lines doc).length)) :
    let next := (frame.documented doc overwrite).settled
    ¬ ((next.documented doc overwrite).settled.withoutLine = next.withoutLine ∧
      next.hasDoc = true) := by
  intro next
  have undocumented : frame.hasDoc = false := by simp [hasDoc, noDoc]
  obtain ⟨first, others, lines_eq⟩ :=
    List.exists_cons_of_ne_nil (Text.lines_ne_nil_of_isBlank_eq_false solid)
  have next_eq : next =
      { frame with
        continuation := frame.continuation ++ [frame.commented first]
        doc := others.map frame.commented } := by
    simp only [next, documented_of_hasDoc_eq_false undocumented]
    exact settled_writeDoc_of_runsOn runsOn lines_eq
  cases overwrite with
  | false =>
      -- All that was written is in the header now.
      rintro ⟨-, hasDoc⟩
      cases others with
      | nil =>
          rw [next_eq] at hasDoc
          exact absurd hasDoc (by simp [Frame.hasDoc])
      | cons second more => exact changes ⟨rfl, by simp [lines_eq]⟩
  | true =>
      -- The whole text is written behind the line that the header took in.
      rintro ⟨same, -⟩
      have written : (next.documented doc true) = next.writeDoc doc := by
        simp [documented]
      have firstWritten : (frame.commented first).isDocumentation = true := by
        rcases (frame.redocumented_writeDoc doc).doc with kept | written
        · simp [writeDoc, noDoc, lines_eq] at kept
        · apply (written (frame.commented first) _).documents
          simp [writeDoc, lines_eq]
      have ends : (next.writeDoc doc).runsOn = false := by
        have codeless := Line.codeless_of_isDocumentation firstWritten
        rw [next_eq]
        simp [Frame.runsOn, headerLines, writeDoc, codeless.isContinued_eq_false]
      rw [written, settled_eq_self (by simp [ends]), next_eq] at same
      have lengths := congrArg (fun frame => frame.doc.length) same
      simp [withoutLine, writeDoc, lines_eq] at lengths

end Documented

end Frame

namespace Tree

/-- The dummy engine documents every construct that may be, and never fails. -/
theorem document_dummy
    {doc : Text}
    (solid : Text.isBlank doc = false)
    (overwrite : Bool)
    (tree : Tree) :
    ∃ pass, tree.document (Engine.dummy doc) overwrite () =
      (tree.mapFrames fun _ => Frame.documented doc overwrite, pass, none) := by
  have changes : Node.Changes (Pass.visitor (Engine.dummy doc) overwrite)
      (Frame.documented doc overwrite) := by
    intro depth construct pass
    simp only [Pass.visitor, Engine.dummy, Frame.documented, solid, Bool.false_eq_true,
      if_false]
    split
    · exact .inl ⟨_, rfl, rfl⟩
    · exact .inr ⟨_, _, rfl, rfl⟩
  obtain ⟨last, visited⟩ := Node.visitAll_of_changes changes 0 0 tree.nodes { memory := () }
  refine ⟨last, ?_⟩
  rw [document, visit, visited]
  rfl

/-- The tree that a second run reads. -/
def reread (doc : Text) (overwrite : Bool) (tree : Tree) : Tree :=
  (tree.mapFrames fun _ => Frame.documented doc overwrite).settled.renumbered

section SecondRun

variable {source doc : Text} {overwrite : Bool} {tree : Tree}

theorem parse_source_documented
    (parsed : parse source = .ok tree)
    (doc : Text)
    (overwrite : Bool) :
    parse (tree.mapFrames fun _ => Frame.documented doc overwrite).source =
      .ok (tree.reread doc overwrite) :=
  parse_source_mapFrames parsed fun _ => Frame.redocumented_documented doc overwrite

/-- The constructs that a second run finds, line numbers apart. -/
theorem map_withoutLine_reread (doc : Text) (overwrite : Bool) (tree : Tree) :
    (tree.reread doc overwrite).frames.map Frame.withoutLine =
      tree.frames.map fun frame => (frame.documented doc overwrite).settled.withoutLine := by
  rw [reread, map_withoutLine_renumbered, settled, frames_mapFrames, frames_mapFrames,
    List.map_map, List.map_map]
  rfl

/-- A second run keeps every construct that it finds if every header ends by itself, or if
documentation is left behind those that do not. -/
theorem reread_keeps
    (parsed : parse source = .ok tree)
    (solid : Text.isBlank doc = false)
    (keeps :
      (∀ frame ∈ tree.frames, frame.runsOn = false) ∨
        overwrite = false ∧ 2 ≤ (Text.lines doc).length) :
    ∀ frame ∈ (tree.reread doc overwrite).frames,
      frame.documented doc overwrite = frame ∧ frame.hasDoc = true := by
  intro frame present
  have found := List.mem_map_of_mem (f := Frame.withoutLine) present
  rw [map_withoutLine_reread] at found
  obtain ⟨before, inTree, frame_eq⟩ := List.mem_map.mp found
  obtain ⟨kept, hasDoc⟩ := Frame.second_run_keeps solid
    (doc_eq_nil_of_runsOn parsed inTree) (keeps.imp_left fun ends => ends before inTree)
  have hasDoc_eq := congrArg Frame.hasDoc frame_eq
  exact ⟨Frame.documented_eq_self_of_withoutLine_eq frame_eq kept, hasDoc_eq.symm.trans hasDoc⟩

/-- Otherwise it changes the text, or finds a construct without documentation. -/
theorem reread_changes
    {before : Frame}
    (parsed : parse source = .ok tree)
    (solid : Text.isBlank doc = false)
    (inTree : before ∈ tree.frames)
    (runsOn : before.runsOn = true)
    (changes : ¬ (overwrite = false ∧ 2 ≤ (Text.lines doc).length))
    (same :
      ((tree.reread doc overwrite).mapFrames fun _ => Frame.documented doc overwrite).source =
        (tree.reread doc overwrite).source) :
    ∃ frame ∈ (tree.reread doc overwrite).frames, frame.hasDoc = false := by
  have read := parse_source_documented parsed doc overwrite
  have found := List.mem_map_of_mem
    (f := fun frame => (Frame.documented doc overwrite frame).settled.withoutLine) inTree
  rw [← map_withoutLine_reread] at found
  obtain ⟨frame, present, frame_eq⟩ := List.mem_map.mp found
  -- A source that the second run keeps is read into the same tree again.
  have readAgain := parse_source_documented read doc overwrite
  rw [same, (parse_eq_ok_iff.mp read).2, read, Except.ok.injEq] at readAgain
  have kept := map_withoutLine_reread doc overwrite (tree.reread doc overwrite)
  rw [← readAgain, List.map_inj_left] at kept
  refine ⟨frame, present, ?_⟩
  by_contra hasDoc
  rw [Bool.not_eq_false] at hasDoc
  apply Frame.second_run_changes runsOn (doc_eq_nil_of_runsOn parsed inTree runsOn) solid
    changes
  constructor
  · rw [Frame.withoutLine_settled, Frame.withoutLine_documented, ← frame_eq,
      ← Frame.withoutLine_documented, ← Frame.withoutLine_settled]
    exact (kept frame present).symm
  · have hasDoc_eq := congrArg Frame.hasDoc frame_eq
    exact hasDoc_eq.symm.trans hasDoc

/-- What a first run with the dummy engine writes is read back.  A second run then changes
nothing and leaves no construct undocumented exactly if every header ends by itself, or if
nothing is overwritten and the text has a line to spare for a header that does not. -/
theorem second_run_iff
    (parsed : parse source = .ok tree)
    (solid : Text.isBlank doc = false)
    (overwrite : Bool) :
    let run := fun tree => document (Engine.dummy doc) overwrite tree ()
    let out := (run tree).1.source
    (run tree).2.2 = none ∧
      ∃ again, parse out = .ok again ∧ (run again).2.2 = none ∧
        (((run again).1.source = out ∧ again.undocumented = []) ↔
          (∀ frame ∈ tree.frames, frame.runsOn = false) ∨
            overwrite = false ∧ 2 ≤ (Text.lines doc).length) := by
  intro run out
  have read := parse_source_documented parsed doc overwrite
  obtain ⟨pass, run_eq⟩ := document_dummy solid overwrite tree
  obtain ⟨nextPass, runAgain_eq⟩ := document_dummy solid overwrite (tree.reread doc overwrite)
  have out_eq : out = (tree.reread doc overwrite).source := by
    rw [(parse_eq_ok_iff.mp read).2]
    simp only [out, run, run_eq]
  refine ⟨by simp only [run, run_eq], tree.reread doc overwrite, ?_,
    by simp only [run, runAgain_eq], ?_⟩
  · rw [out_eq, (parse_eq_ok_iff.mp read).2, read]
  simp only [run, runAgain_eq, out_eq, undocumented_eq_nil_iff]
  constructor
  · rintro ⟨same, noneLeft⟩
    by_contra changes
    rw [not_or] at changes
    obtain ⟨someRunsOn, changes⟩ := changes
    obtain ⟨before, inTree, runsOn⟩ : ∃ before ∈ tree.frames, before.runsOn = true := by
      simpa using someRunsOn
    obtain ⟨frame, present, noDoc⟩ :=
      reread_changes parsed solid inTree runsOn changes same
    rw [noneLeft frame present] at noDoc
    exact absurd noDoc (by decide)
  · intro keeps
    have kept := reread_keeps parsed solid keeps
    refine ⟨?_, fun frame present => (kept frame present).2⟩
    rw [mapFrames_eq_self fun frame present => (kept frame present).1]

/-- Of two lines the type in the nested module, whose header runs on, keeps one. -/
theorem second_run_nestedTree :
    let run := fun tree => document (Engine.dummy "To do.\nSoon.".toList) false tree ()
    let out := (run nestedTree).1.source
    ∃ again, parse out = .ok again ∧ (run again).1.source = out ∧ again.undocumented = [] := by
  intro run out
  have solid : Text.isBlank "To do.\nSoon.".toList = false := by
    decide +kernel
  obtain ⟨-, again, read, -, keeps_iff⟩ := second_run_iff parse_nestedSource solid false
  exact ⟨again, read, keeps_iff.mpr (.inr ⟨rfl, by decide +kernel⟩)⟩

end SecondRun

/-- A module whose header runs up to its closing line, with the comments in the header. -/
def runningTree (comments : List Line) : Tree where
  nodes :=
    [.construct
      { kind := .module
        line := 1
        opener := "module m &".toList
        continuation := comments
        doc := []
        closing := "end module".toList
        indent := 0 }
      []]

/-- A text of one line goes into such a header, where a second run does not find it. -/
theorem second_run_of_runningTree :
    let run := fun tree => document (Engine.dummy "Dummy.".toList) false tree ()
    let out := (run (runningTree [])).1.source
    parse "module m &\nend module".toList = .ok (runningTree []) ∧
      Text.isBlank "Dummy.".toList = false ∧ out = "module m &\n! Dummy.\nend module".toList ∧
        parse out = .ok (runningTree ["! Dummy.".toList]) ∧
          (run (runningTree ["! Dummy.".toList])).1.source ≠ out ∧
            (runningTree ["! Dummy.".toList]).undocumented ≠ [] := by
  intro run out
  refine ⟨?_, by decide +kernel, by decide +kernel, ?_, by decide +kernel, by decide +kernel⟩
  · apply parse_eq_ok_iff.mpr
    decide +kernel
  · apply parse_eq_ok_iff.mpr
    decide +kernel

end Tree
end FortranDocs
