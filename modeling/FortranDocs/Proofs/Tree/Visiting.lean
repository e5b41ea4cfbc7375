import FortranDocs.Proofs.Tree.Frames

/-!
# A visit in pre-order

A visitor changes a tree while it walks through it.  `Tree.visit_eq` states that it is
shown the constructs as they were before the visit, one after the other in pre-order, and
that the visit writes into them what it decided there and changes nothing else.
-/

namespace FortranDocs

namespace Visitor

variable {State Failure : Type}

/-- Show constructs in a row to a visitor until it stops.  For each construct that the
visitor got through, it decided on the documentation to write, if any. -/
def survey (visitor : Visitor State Failure) :
    List (Nat × Construct) -> State -> List (Option Text) × State × Option Failure
  | [], state => ([], state, none)
  | (depth, construct) :: rest, state =>
      match visitor depth construct state with
      | .stop failure state => ([], state, some failure)
      | .keep state =>
          let (decisions, outcome) := survey visitor rest state
          (none :: decisions, outcome)
      | .write doc state =>
          let (decisions, outcome) := survey visitor rest state
          (some doc :: decisions, outcome)

/-- Two rows are surveyed one after the other, unless the visitor stops in the first. -/
theorem survey_append
    (visitor : Visitor State Failure)
    (front back : List (Nat × Construct))
    (state : State) :
    survey visitor (front ++ back) state =
      match survey visitor front state with
      | (decisions, state, some failure) => (decisions, state, some failure)
      | (decisions, state, none) =>
          let (further, outcome) := survey visitor back state
          (decisions ++ further, outcome) := by
  induction front generalizing state with
  | nil => rfl
  | cons shown rest inductionHypothesis =>
      obtain ⟨depth, construct⟩ := shown
      simp only [List.cons_append, survey]
      cases visitor depth construct state with
      | stop failure last => rfl
      | keep next =>
          simp only [inductionHypothesis]
          rcases survey visitor rest next with ⟨decisions, last, _ | failure⟩ <;> rfl
      | write doc next =>
          simp only [inductionHypothesis]
          rcases survey visitor rest next with ⟨decisions, last, _ | failure⟩ <;> rfl

/-- A visitor decides on every construct, or stops at one that it does not decide on. -/
theorem length_survey
    {visitor : Visitor State Failure}
    {constructs : List (Nat × Construct)}
    {state last : State}
    {decisions : List (Option Text)}
    {failure : Option Failure}
    (surveyed : survey visitor constructs state = (decisions, last, failure)) :
    decisions.length ≤ constructs.length ∧
      (failure = none → decisions.length = constructs.length) := by
  induction constructs generalizing state decisions with
  | nil =>
      cases surveyed
      simp
  | cons shown rest inductionHypothesis =>
      obtain ⟨depth, construct⟩ := shown
      rw [survey] at surveyed
      cases visits : visitor depth construct state with
      | stop failure last =>
          rw [visits] at surveyed
          cases surveyed
          simp
      | keep next =>
          rcases onward : survey visitor rest next with ⟨further, outcome⟩
          simp only [visits, onward] at surveyed
          cases surveyed
          simpa using inductionHypothesis onward
      | write doc next =>
          rcases onward : survey visitor rest next with ⟨further, outcome⟩
          simp only [visits, onward] at surveyed
          cases surveyed
          simpa using inductionHypothesis onward

end Visitor

namespace Frame

/-- The frame with the documentation that was decided on under its number, if any. -/
def decided (decisions : List (Option Text)) (number : Nat) (frame : Frame) : Frame :=
  match decisions[number]? with
  | some (some doc) => frame.writeDoc doc
  | _ => frame

/-- Without a decision a frame stays as it is. -/
theorem decided_of_length_le
    {decisions : List (Option Text)}
    {number : Nat}
    (beyond : decisions.length ≤ number)
    (frame : Frame) :
    frame.decided decisions number = frame := by
  rw [decided, List.getElem?_eq_none beyond]

end Frame

namespace Node

variable {State Failure : Type}

/-- Behind the last decision nothing changes. -/
theorem mapFramesOfAll_decided_of_length_le
    {decisions : List (Option Text)}
    {number : Nat}
    (beyond : decisions.length ≤ number)
    (nodes : List Node) :
    mapFramesOfAll (Frame.decided decisions) number nodes = nodes := by
  have keeps : mapFramesOfAll (Frame.decided decisions) number nodes =
      mapFramesOfAll (fun _ frame => frame) number nodes := by
    apply mapFramesOfAll_congr
    intro index frame _
    exact Frame.decided_of_length_le (Nat.le_add_right_of_le beyond) frame
  rw [keeps, mapFramesOfAll_eq_self fun _ _ => rfl]

theorem mapFramesOfAll_decided_nil (number : Nat) (nodes : List Node) :
    mapFramesOfAll (Frame.decided []) number nodes = nodes :=
  mapFramesOfAll_decided_of_length_le (Nat.zero_le number) nodes

/-- Decisions on further constructs change nothing. -/
theorem mapFramesOfAll_decided_append
    {decisions : List (Option Text)}
    {nodes : List Node}
    (enough : decisions.length = countAll nodes)
    (further : List (Option Text)) :
    mapFramesOfAll (Frame.decided (decisions ++ further)) 0 nodes =
      mapFramesOfAll (Frame.decided decisions) 0 nodes := by
  apply mapFramesOfAll_congr
  intro index frame found
  have inside : index < decisions.length := by
    rw [enough, ← length_framesOfAll]
    exact (List.getElem?_eq_some_iff.mp found).1
  rw [Nat.zero_add, Frame.decided, Frame.decided, List.getElem?_append_left inside]

/-- The first decision is for the first construct; those on its body and on the rest
follow. -/
theorem mapFramesOfAll_decided_cons
    (decision : Option Text)
    (decisions : List (Option Text))
    (frame : Frame)
    (body rest : List Node) :
    mapFramesOfAll (Frame.decided (decision :: decisions)) 0 (.construct frame body :: rest) =
      .construct (frame.decided [decision] 0)
          (mapFramesOfAll (Frame.decided decisions) 0 body) ::
        mapFramesOfAll (Frame.decided (decisions.drop (countAll body))) 0 rest := by
  have inBody : mapFramesOfAll (Frame.decided (decision :: decisions)) (0 + 1) body =
      mapFramesOfAll (Frame.decided decisions) 0 body := by
    apply mapFramesOfAll_congr
    intro index inner _
    rw [Nat.zero_add, Nat.zero_add, Nat.add_comm 1, Frame.decided, List.getElem?_cons_succ,
      Frame.decided]
  have inRest :
      mapFramesOfAll (Frame.decided (decision :: decisions)) (0 + 1 + countAll body) rest =
        mapFramesOfAll (Frame.decided (decisions.drop (countAll body))) 0 rest := by
    apply mapFramesOfAll_congr
    intro index inner _
    rw [Nat.zero_add, Nat.zero_add, Nat.add_assoc, Nat.add_comm 1, Frame.decided,
      List.getElem?_cons_succ, Frame.decided, List.getElem?_drop]
  rw [mapFramesOfAll_construct, inBody, inRest]
  rfl

/-- A visitor that stops in the body of a first construct leaves the rest as it is. -/
theorem mapFramesOfAll_decided_of_stopped
    {decisions : List (Option Text)}
    {body : List Node}
    (inBody : decisions.length ≤ countAll body)
    (decision : Option Text)
    (frame : Frame)
    (rest : List Node) :
    mapFramesOfAll (Frame.decided (decision :: decisions)) 0 (.construct frame body :: rest) =
      .construct (frame.decided [decision] 0)
          (mapFramesOfAll (Frame.decided decisions) 0 body) :: rest := by
  rw [mapFramesOfAll_decided_cons, List.drop_eq_nil_of_le inBody, mapFramesOfAll_decided_nil]

/-- The decisions behind those on the body of a first construct are for the rest. -/
theorem mapFramesOfAll_decided_of_finished
    {decisions : List (Option Text)}
    {body : List Node}
    (enough : decisions.length = countAll body)
    (decision : Option Text)
    (further : List (Option Text))
    (frame : Frame)
    (rest : List Node) :
    mapFramesOfAll (Frame.decided (decision :: (decisions ++ further))) 0
        (.construct frame body :: rest) =
      .construct (frame.decided [decision] 0)
          (mapFramesOfAll (Frame.decided decisions) 0 body) ::
        mapFramesOfAll (Frame.decided further) 0 rest := by
  rw [mapFramesOfAll_decided_cons, mapFramesOfAll_decided_append enough, ← enough,
    List.drop_left]

/-- A visit writes what a survey of the constructs decides on. -/
theorem visitAll_eq
    (visitor : Visitor State Failure)
    (depth : Nat)
    (nodes : List Node)
    (state : State) :
    visitAll visitor depth nodes state =
      let (decisions, outcome) := visitor.survey (constructsOfAll depth nodes) state
      (mapFramesOfAll (Frame.decided decisions) 0 nodes, outcome) := by
  induction nodes using inductionAll generalizing depth state with
  | nil => simp [constructsOfAll, Visitor.survey, visitAll]
  | text lines rest restHypothesis =>
      simp [constructsOfAll, constructs, visitAll, visit, restHypothesis]
  | construct frame body rest bodyHypothesis restHypothesis =>
      have inBody {next last : State} {decisions : List (Option Text)} {failure : Option Failure}
          (surveyed : visitor.survey (constructsOfAll (depth + 1) body) next =
            (decisions, last, failure)) :
          decisions.length ≤ countAll body ∧
            (failure = none → decisions.length = countAll body) := by
        rw [← length_constructsOfAll (depth + 1) body]
        exact Visitor.length_survey surveyed
      simp only [constructsOfAll, constructs, List.cons_append, Visitor.survey, visitAll, visit]
      cases visitor depth { toFrame := frame, body } state with
      | stop failure last => simp only [mapFramesOfAll_decided_nil]
      | keep next =>
          simp only [Visitor.survey_append, bodyHypothesis]
          rcases surveyed : visitor.survey (constructsOfAll (depth + 1) body) next with
            ⟨decisions, between, _ | failure⟩
          · have enough := (inBody surveyed).2 rfl
            simp only [restHypothesis, mapFramesOfAll_decided_of_finished enough]
            rfl
          · simp only [mapFramesOfAll_decided_of_stopped (inBody surveyed).1]
            rfl
      | write doc next =>
          simp only [Visitor.survey_append, bodyHypothesis]
          rcases surveyed : visitor.survey (constructsOfAll (depth + 1) body) next with
            ⟨decisions, between, _ | failure⟩
          · have enough := (inBody surveyed).2 rfl
            simp only [restHypothesis, mapFramesOfAll_decided_of_finished enough]
            rfl
          · simp only [mapFramesOfAll_decided_of_stopped (inBody surveyed).1]
            rfl

end Node

/-- A construct behind the last decision stays as it is, with all that is in it. -/
theorem Construct.mapFrames_decided_of_length_le
    {decisions : List (Option Text)}
    {number : Nat}
    (beyond : decisions.length ≤ number)
    (construct : Construct) :
    construct.mapFrames (Frame.decided decisions) number = construct := by
  rw [Construct.mapFrames, Frame.decided_of_length_le beyond,
    Node.mapFramesOfAll_decided_of_length_le (Nat.le_succ_of_le beyond)]

namespace Tree

/-- A visitor is shown the constructs as they were before the visit, in pre-order, and the
visit writes what the visitor decided on each. -/
theorem visit_eq
    {State Failure : Type}
    (visitor : Visitor State Failure)
    (tree : Tree)
    (state : State) :
    tree.visit visitor state =
      let (decisions, outcome) := visitor.survey tree.constructs state
      (tree.mapFrames (Frame.decided decisions), outcome) := by
  rw [visit, Node.visitAll_eq]
  rfl

end Tree
end FortranDocs
