import FortranDocs.Proofs.Pass.Requests
import FortranDocs.Proofs.Tree.Places

/-!
# What a pass leaves undocumented

The list of undocumented constructs can be told before a pass: it holds those constructs of
the visit that have no documentation.  `Tree.undocumented_of_visit` states that a pass without
overwriting asks for exactly these, one after the other, and that those which got a blank
answer are the ones listed afterwards.
-/

namespace FortranDocs

namespace Visitor

variable {State Failure : Type}

/-- The visitor that does the same and notes down what it is shown. -/
def recording
    (visitor : Visitor State Failure) :
    Visitor (List (Nat × Construct) × State) Failure :=
  fun depth construct (shown, state) =>
    let shown := shown ++ [(depth, construct)]
    match visitor depth construct state with
    | .keep state => .keep (shown, state)
    | .write doc state => .write doc (shown, state)
    | .stop failure state => .stop failure (shown, state)

/-- A visitor that does not stop is shown everything, and noting it down changes nothing. -/
theorem survey_recording
    {visitor : Visitor State Failure}
    {constructs : List (Nat × Construct)}
    {state last : State}
    {decisions : List (Option Text)}
    (surveyed : survey visitor constructs state = (decisions, last, none))
    (shown : List (Nat × Construct)) :
    survey visitor.recording constructs (shown, state) =
      (decisions, (shown ++ constructs, last), none) := by
  induction constructs generalizing state decisions shown with
  | nil =>
      cases surveyed
      simp [survey]
  | cons next rest inductionHypothesis =>
      obtain ⟨depth, construct⟩ := next
      rw [survey] at surveyed
      cases visits : visitor depth construct state with
      | stop failure last =>
          rw [visits] at surveyed
          cases surveyed
      | keep further =>
          rcases onward : survey visitor rest further with ⟨others, outcome⟩
          simp only [visits, onward] at surveyed
          cases surveyed
          simp [survey, recording, visits, inductionHypothesis onward]
      | write doc further =>
          rcases onward : survey visitor rest further with ⟨others, outcome⟩
          simp only [visits, onward] at surveyed
          cases surveyed
          simp [survey, recording, visits, inductionHypothesis onward]

end Visitor

namespace Node

/-- The node as a construct, if it is one. -/
def construct? : Node -> Option Construct
  | .text _ => none
  | .construct frame body => some { toFrame := frame, body }

/-- A walk meets the constructs in the order in which they are listed. -/
theorem filterMap_walkAll (depth : Nat) (nodes : List Node) :
    (walkAll nodes).filterMap construct? = (constructsOfAll depth nodes).map Prod.snd := by
  induction nodes using inductionAll generalizing depth with
  | nil => simp [walkAll, constructsOfAll]
  | text lines rest restHypothesis =>
      simp [walkAll, walk, List.filterMap_cons, construct?, constructsOfAll, constructs,
        restHypothesis depth]
  | construct frame body rest bodyHypothesis restHypothesis =>
      simp [walkAll, walk, construct?, constructsOfAll, constructs, restHypothesis depth,
        bodyHypothesis (depth + 1)]

end Node

/-! ## Entries of the list -/

namespace Frame

/-- The entry of a construct in the list of those without documentation, if it has one. -/
def entry (depth : Nat) (frame : Frame) : Option Undocumented :=
  if frame.hasDoc then
    none
  else
    some { kind := frame.kind, line := frame.line, depth, signature := frame.signature }

theorem entry_eq_none {frame : Frame} (hasDoc : frame.hasDoc = true) (depth : Nat) :
    frame.entry depth = none := by
  rw [entry, if_pos hasDoc]

theorem entry_writeDoc {doc : Text} (solid : Text.isBlank doc = false) (depth : Nat)
    (frame : Frame) :
    (frame.writeDoc doc).entry depth = none := by
  apply entry_eq_none
  have written := Text.lines_ne_nil_of_isBlank_eq_false solid
  simpa [hasDoc, writeDoc] using written

theorem decided_cons_succ
    (decision : Option Text)
    (decisions : List (Option Text))
    (number : Nat)
    (frame : Frame) :
    frame.decided (decision :: decisions) (number + 1) = frame.decided decisions number := by
  rw [decided, List.getElem?_cons_succ, decided]

end Frame

/-- The entries of constructs in a row. -/
def entriesOf (constructs : List (Nat × Construct)) : List Undocumented :=
  constructs.filterMap fun (depth, construct) => construct.toFrame.entry depth

/-- The entries of constructs in a row, after documentation was written into them as
decided. -/
def entriesDecided
    (decisions : List (Option Text))
    (constructs : List (Nat × Construct)) :
    List Undocumented :=
  (constructs.mapIdx fun index (depth, construct) =>
    (construct.toFrame.decided decisions index).entry depth).filterMap id

theorem entriesOf_cons (depth : Nat) (construct : Construct) (rest : List (Nat × Construct)) :
    entriesOf ((depth, construct) :: rest) =
      (construct.toFrame.entry depth).toList ++ entriesOf rest := by
  simp only [entriesOf, List.filterMap_cons]
  cases construct.toFrame.entry depth with
  | none => rfl
  | some entry => rfl

theorem entriesDecided_cons
    (decision : Option Text)
    (decisions : List (Option Text))
    (depth : Nat)
    (construct : Construct)
    (rest : List (Nat × Construct)) :
    entriesDecided (decision :: decisions) ((depth, construct) :: rest) =
      ((construct.toFrame.decided [decision] 0).entry depth).toList ++
        entriesDecided decisions rest := by
  have first_eq : construct.toFrame.decided (decision :: decisions) 0 =
      construct.toFrame.decided [decision] 0 := rfl
  simp only [entriesDecided, List.mapIdx_cons, Frame.decided_cons_succ, first_eq,
    List.filterMap_cons, id_eq]
  cases (construct.toFrame.decided [decision] 0).entry depth with
  | none => rfl
  | some entry => rfl

namespace Tree

theorem undocumented_eq_entriesOf (tree : Tree) :
    tree.undocumented = entriesOf tree.constructs := by
  rw [undocumented_eq, entriesOf, ← List.filterMap_eq_map, List.filterMap_filter]
  congr 1
  funext found
  cases hasDoc : found.2.hasDoc with
  | true => simp [hasDoc, Frame.entry]
  | false => simp [hasDoc, Frame.entry]

theorem undocumented_mapFrames_decided (decisions : List (Option Text)) (tree : Tree) :
    (tree.mapFrames (Frame.decided decisions)).undocumented =
      entriesDecided decisions tree.constructs := by
  have entries_eq : (tree.constructs.mapIdx fun index (depth, construct) =>
      (construct.toFrame.decided decisions index).entry depth) =
      (tree.mapFrames (Frame.decided decisions)).constructs.map
        fun (depth, construct) => construct.toFrame.entry depth := by
    rw [constructs, constructs, mapFrames, Node.constructsOfAll_mapFramesOfAll,
      List.mapIdx_eq_zipIdx_map, List.mapIdx_eq_zipIdx_map, List.map_map]
    simp only [Nat.zero_add]
    rfl
  rw [undocumented_eq_entriesOf, entriesDecided, entries_eq, List.filterMap_map]
  rfl

end Tree

/-! ## Replies -/

namespace Engine

variable {Memory : Type}

/-- A pass that neither overwrites nor fails gets an answer for every entry, and the entries
with a blank answer are left. -/
theorem Passes.exists_answers
    {engine : Engine Memory}
    {memory : Memory}
    {course : Course Memory}
    {constructs : List (Nat × Construct)}
    (passes : engine.Passes false (constructs.map Prod.snd) memory course)
    (succeeds : course.failure = none) :
    ∃ answers : List Text,
      engine.replies course.requests memory = answers.map .ok ∧
        answers.length = (entriesOf constructs).length ∧
        entriesDecided course.decisions constructs =
          (((entriesOf constructs).zip answers).filter fun (_, answer) =>
            Text.isBlank answer).map Prod.fst := by
  generalize listed : constructs.map Prod.snd = row at passes
  -- Along the pass, with the list of depths carried beside it.
  induction passes generalizing constructs with
  | finished memory =>
      obtain rfl := List.map_eq_nil_iff.mp listed
      exact ⟨[], rfl, rfl, rfl⟩
  | @passedOver construct rest memory course notDue onward inductionHypothesis =>
      obtain ⟨⟨depth, first⟩, others, rfl, rfl, rfl⟩ := List.map_eq_cons_iff.mp listed
      obtain ⟨answers, replies_eq, length_eq, left_eq⟩ := inductionHypothesis succeeds rfl
      have hasDoc : first.hasDoc = true := by
        simpa [Construct.isDue] using notDue
      have noEntry := Frame.entry_eq_none hasDoc depth
      refine ⟨answers, replies_eq, ?_, ?_⟩
      · simpa [entriesOf_cons, noEntry] using length_eq
      · simpa [entriesDecided_cons, entriesOf_cons, Frame.decided, noEntry] using left_eq
  | @unanswered construct rest memory next answer course due answered blank onward
      inductionHypothesis =>
      obtain ⟨⟨depth, first⟩, others, rfl, rfl, rfl⟩ := List.map_eq_cons_iff.mp listed
      obtain ⟨answers, replies_eq, length_eq, left_eq⟩ := inductionHypothesis succeeds rfl
      have noDoc : first.hasDoc = false := by
        simpa [Construct.isDue] using due
      refine ⟨answer :: answers, ?_, ?_, ?_⟩
      · rw [replies_cons answered, replies_eq, List.map_cons]
      · simpa [entriesOf_cons, Frame.entry, noDoc] using length_eq
      · simpa [entriesDecided_cons, entriesOf_cons, Frame.decided, Frame.entry, noDoc, blank]
          using left_eq
  | @answered construct rest memory next answer course due answered solid onward
      inductionHypothesis =>
      obtain ⟨⟨depth, first⟩, others, rfl, rfl, rfl⟩ := List.map_eq_cons_iff.mp listed
      obtain ⟨answers, replies_eq, length_eq, left_eq⟩ := inductionHypothesis succeeds rfl
      have noDoc : first.hasDoc = false := by
        simpa [Construct.isDue] using due
      have noEntry := Frame.entry_writeDoc solid depth first.toFrame
      refine ⟨answer :: answers, ?_, ?_, ?_⟩
      · rw [replies_cons answered, replies_eq, List.map_cons]
      · simpa [entriesOf_cons, Frame.entry, noDoc] using length_eq
      · rw [entriesDecided_cons, left_eq, Frame.decided, List.getElem?_cons_zero, noEntry]
        simp [entriesOf_cons, Frame.entry, noDoc, solid]
  | failed due fails rest => exact absurd succeeds (Option.some_ne_none _)

end Engine

namespace Tree

/-- A visitor that does not stop is shown the constructs in the order of their places, each
once and with the number of constructs around it; a walk meets the same ones.  The list of
undocumented constructs holds those of them without documentation.  So a pass that neither
overwrites nor fails makes one request for each entry, of the same kind, and the entries that
got a blank answer are listed afterwards. -/
theorem undocumented_of_visit (tree : Tree) :
    (∀ (State Failure : Type) (visitor : Visitor State Failure) state result last,
      tree.visit visitor state = (result, last, none) →
        ∃ shown,
          tree.visit visitor.recording ([], state) = (result, (shown, last), none) ∧
            shown = tree.constructs ∧ tree.undocumented = entriesOf shown) ∧
    tree.constructs.map Prod.snd = tree.walk.filterMap Node.construct? ∧
    (tree.places.Pairwise (· < ·) ∧
      (∀ path, path ∈ tree.places ↔ (tree.constructAt path).isSome = true) ∧
        tree.constructs.map some = tree.places.map fun path =>
          (tree.constructAt path).map fun found =>
            ((tree.constructsAlong path).length - 1, found)) ∧
    ∀ (Memory : Type) (engine : Engine Memory) memory result pass,
      tree.document engine false memory = (result, pass, none) →
        pass.requests.map Request.kind = tree.undocumented.map Undocumented.kind ∧
          ∃ answers : List Text,
            engine.replies pass.requests memory = answers.map .ok ∧
              answers.length = tree.undocumented.length ∧
                result.undocumented =
                  ((tree.undocumented.zip answers).filter fun (_, answer) =>
                    Text.isBlank answer).map Prod.fst := by
  refine ⟨?_, ?_, ⟨tree.pairwise_places, fun _ => mem_places_iff, tree.map_places.symm⟩, ?_⟩
  · intro State Failure visitor state result last visited
    rcases surveyed : visitor.survey tree.constructs state with ⟨decisions, final, failure⟩
    rw [visit_eq, surveyed] at visited
    cases visited
    refine ⟨tree.constructs, ?_, rfl, tree.undocumented_eq_entriesOf⟩
    rw [visit_eq, Visitor.survey_recording surveyed, List.nil_append]
  · exact (Node.filterMap_walkAll 0 tree.nodes).symm
  · intro Memory engine memory result pass run
    have requests_eq := requests_eq_of_success run
    obtain ⟨course, last, document_eq, passes, records⟩ :=
      tree.document_eq engine false memory
    rw [run, Prod.mk.injEq, Prod.mk.injEq] at document_eq
    obtain ⟨rfl, rfl, succeeds⟩ := document_eq
    obtain ⟨answers, replies_eq, length_eq, left_eq⟩ :=
      Engine.Passes.exists_answers passes succeeds.symm
    have asked_eq : pass.requests = course.requests := by
      rw [records.requests, List.nil_append]
    refine ⟨?_, answers, ?_, ?_, ?_⟩
    · rw [requests_eq, undocumented_eq, Construct.requestsDue, List.filter_map, List.map_map,
        List.map_map, List.map_map]
      rfl
    · rw [asked_eq, replies_eq]
    · rw [undocumented_eq_entriesOf, length_eq]
    · rw [undocumented_mapFrames_decided, undocumented_eq_entriesOf, left_eq]

/-- In the nested module the type gets a blank answer and stays listed, and the procedure is
documented. -/
theorem undocumented_of_visit_nestedTree :
    let run := nestedTree.document Engine.prepared false [.ok " ".toList, .ok "Runs.".toList]
    run.2.2 = none ∧
      run.2.1.requests.map Request.kind = [.type, .subroutine] ∧
      nestedTree.undocumented.map Undocumented.line = [6, 10] ∧
      run.1.undocumented.map Undocumented.line = [6] := by
  intro run
  have succeeds : run.2.2 = none := by
    decide +kernel
  have listed : nestedTree.undocumented.map Undocumented.kind = [.type, .subroutine] := by
    decide +kernel
  have replied : Engine.prepared.replies run.2.1.requests
      [.ok " ".toList, .ok "Runs.".toList] =
        [" ".toList, "Runs.".toList].map Except.ok := by
    decide +kernel
  obtain ⟨kinds_eq, answers, replies_eq, -, left_eq⟩ :=
    (undocumented_of_visit nestedTree).2.2.2 _ Engine.prepared
      [.ok " ".toList, .ok "Runs.".toList] run.1 run.2.1
      (Prod.ext rfl (Prod.ext rfl succeeds))
  refine ⟨succeeds, kinds_eq.trans listed, by decide +kernel, ?_⟩
  have answers_eq : answers = [" ".toList, "Runs.".toList] :=
    (List.map_injective_iff.mpr (fun _ _ => Except.ok.inj)) (replies_eq.symm.trans replied)
  rw [left_eq, answers_eq]
  decide +kernel

end Tree
end FortranDocs
