import FortranDocs.Proofs.Pass.Course
import Mathlib.Data.List.Forall2

/-!
# Passes in lockstep

An engine whose answers do not depend on what it is asked takes two trees the same course, if
their constructs are told apart by their texts alone.  `Visitor.survey_inStep` says so of any
visitor that treats the constructs alike one by one, and `Tree.document_inStep` of documenting
two trees.
-/

namespace FortranDocs

namespace Visit

variable {State Failure : Type}

/-- Two visits that do the same, and leave related states. -/
inductive InStep (related : State -> State -> Prop) :
    Visit State Failure -> Visit State Failure -> Prop
  | keep {left right : State} (states : related left right) :
      InStep related (.keep left) (.keep right)
  | write (doc : Text) {left right : State} (states : related left right) :
      InStep related (.write doc left) (.write doc right)
  | stop (failure : Failure) {left right : State} (states : related left right) :
      InStep related (.stop failure left) (.stop failure right)

end Visit

namespace Visitor

variable {State Failure : Type}

/-- A visitor that treats constructs alike one by one takes the same decisions in two rows of
them, and stops in both for the same reason or in none. -/
theorem survey_inStep
    {visitor : Visitor State Failure}
    {related : State -> State -> Prop}
    {alike : Nat × Construct -> Nat × Construct -> Prop}
    {shown others : List (Nat × Construct)}
    {state otherState : State}
    (step :
      ∀ left right, alike left right →
        ∀ state otherState, related state otherState →
          Visit.InStep related (visitor left.1 left.2 state)
            (visitor right.1 right.2 otherState))
    (allAlike : List.Forall₂ alike shown others)
    (states : related state otherState) :
    let (decisions, last, failure) := survey visitor shown state
    let (otherDecisions, otherLast, otherFailure) := survey visitor others otherState
    otherDecisions = decisions ∧ related last otherLast ∧ otherFailure = failure := by
  induction allAlike generalizing state otherState with
  | nil => exact ⟨rfl, states, rfl⟩
  | @cons left right rest otherRest first _ inductionHypothesis =>
      have visits := step left right first state otherState states
      simp only [survey]
      generalize visitor left.1 left.2 state = visit at visits
      generalize visitor right.1 right.2 otherState = otherVisit at visits
      cases visits with
      | keep next =>
          obtain ⟨decisions_eq, onward⟩ := inductionHypothesis next
          exact ⟨congrArg (none :: ·) decisions_eq, onward⟩
      | write doc next =>
          obtain ⟨decisions_eq, onward⟩ := inductionHypothesis next
          exact ⟨congrArg (some doc :: ·) decisions_eq, onward⟩
      | stop failure last => exact ⟨rfl, last, rfl⟩

end Visitor

namespace Engine

variable {Memory : Type}

/-- The answers of an engine are fixed beforehand, one for each number of requests made before,
whatever is asked. -/
def Scripted
    (engine : Engine Memory)
    (memory : Memory)
    (replies : Nat -> Except Failure Text) :
    Prop :=
  ∀ requests request,
    (engine.answer request (engine.after memory requests)).1 = replies requests.length

theorem scripted_prepared (replies : List (Except Failure Text)) :
    prepared.Scripted replies fun count => replies[count]?.getD (.ok []) := by
  have after_eq (requests : List Request) :
      prepared.after replies requests = replies.drop requests.length := by
    induction requests using List.reverseRecOn with
    | nil => rfl
    | append_singleton requests request inductionHypothesis =>
        rw [after_concat, inductionHypothesis, List.length_append, List.length_singleton,
          ← List.drop_drop]
        cases replies.drop requests.length <;> rfl
  intro requests request
  have reply_eq := List.head?_drop (l := replies) (i := requests.length)
  simp only [after_eq, ← reply_eq]
  cases replies.drop requests.length <;> rfl

end Engine

/-- Two constructs at their depths, which are listed alike. -/
structure ListedAlike (left right : Nat × Construct) : Prop where
  depth : left.1 = right.1
  kind : left.2.kind = right.2.kind
  line : left.2.line = right.2.line
  signature : left.2.signature = right.2.signature
  hasDoc : left.2.hasDoc = right.2.hasDoc

/-- Trees with constructs that are listed alike have the same constructs to document. -/
theorem Tree.undocumented_of_listedAlike
    {left right : Tree}
    (alike : List.Forall₂ ListedAlike left.constructs right.constructs) :
    left.undocumented = right.undocumented := by
  rw [undocumented_eq, undocumented_eq]
  generalize left.constructs = constructs at alike
  generalize right.constructs = others at alike
  induction alike with
  | nil => rfl
  | @cons first otherFirst _ _ listedAlike _ inductionHypothesis =>
      obtain ⟨depth, construct⟩ := first
      obtain ⟨otherDepth, other⟩ := otherFirst
      obtain ⟨rfl, kind_eq, line_eq, signature_eq, hasDoc_eq⟩ := listedAlike
      dsimp only at kind_eq line_eq signature_eq hasDoc_eq
      simp only [List.filter_cons, hasDoc_eq]
      split
      · simp only [List.map_cons, inductionHypothesis, kind_eq, line_eq, signature_eq]
      · exact inductionHypothesis

namespace Pass

variable {Memory : Type}

/-- Two states of passes with one engine that have asked equally often and have counted the
same. -/
structure InStep
    (engine : Engine Memory)
    (memory : Memory)
    (left right : Pass Memory) :
    Prop where
  /-- The same was counted. -/
  report : right.report = left.report
  /-- The same number of requests was made. -/
  count : right.requests.length = left.requests.length
  /-- The engine remembers the requests of the first pass. -/
  leftMemory : left.memory = engine.after memory left.requests
  /-- The engine remembers the requests of the second pass. -/
  rightMemory : right.memory = engine.after memory right.requests

/-- Asked by two passes in step, an engine with fixed answers says the same to both. -/
theorem InStep.answers
    {engine : Engine Memory}
    {memory next otherNext : Memory}
    {replies : Nat -> Except Failure Text}
    {pass other : Pass Memory}
    {request otherRequest : Request}
    {reply otherReply : Except Failure Text}
    (states : InStep engine memory pass other)
    (scripted : engine.Scripted memory replies)
    (answered : engine.answer request pass.memory = (reply, next))
    (otherAnswered : engine.answer otherRequest other.memory = (otherReply, otherNext)) :
    otherReply = reply ∧
      next = engine.after memory (pass.requests ++ [request]) ∧
        otherNext = engine.after memory (other.requests ++ [otherRequest]) := by
  rw [states.leftMemory] at answered
  rw [states.rightMemory] at otherAnswered
  have reply_eq := scripted pass.requests request
  have otherReply_eq := scripted other.requests otherRequest
  rw [answered] at reply_eq
  rw [otherAnswered, states.count] at otherReply_eq
  refine ⟨otherReply_eq.trans reply_eq.symm, ?_, ?_⟩
  · rw [Engine.after_concat, answered]
  · rw [Engine.after_concat, otherAnswered]

/-- An engine with fixed answers has constructs that are listed alike treated alike. -/
theorem visitor_inStep
    {engine : Engine Memory}
    {memory : Memory}
    {replies : Nat -> Except Failure Text}
    {left right : Nat × Construct}
    {pass other : Pass Memory}
    (scripted : engine.Scripted memory replies)
    (overwrite : Bool)
    (alike : ListedAlike left right)
    (states : InStep engine memory pass other) :
    Visit.InStep (InStep engine memory) (visitor engine overwrite left.1 left.2 pass)
      (visitor engine overwrite right.1 right.2 other) := by
  simp only [visitor, alike.hasDoc, alike.kind, alike.line, alike.signature]
  split
  · refine .keep ?_
    exact
      { report := by simp only [states.report]
        count := states.count
        leftMemory := states.leftMemory
        rightMemory := states.rightMemory }
  · have count (request otherRequest : Request) :
        (other.requests ++ [otherRequest]).length = (pass.requests ++ [request]).length := by
      rw [List.length_append, List.length_append, states.count]
      rfl
    rcases answered : engine.answer _ pass.memory with ⟨reply, next⟩
    rcases otherAnswered : engine.answer _ other.memory with ⟨otherReply, otherNext⟩
    obtain ⟨rfl, leftMemory, rightMemory⟩ := states.answers scripted answered otherAnswered
    cases otherReply with
    | error cause =>
        refine .stop _ ?_
        exact { report := states.report, count := count _ _, leftMemory, rightMemory }
    | ok doc =>
        cases blank : Text.isBlank doc with
        | true =>
            simp only [blank, if_true]
            refine .keep ?_
            exact
              { report := by simp only [states.report]
                count := count _ _
                leftMemory
                rightMemory }
        | false =>
            simp only [blank, Bool.false_eq_true, if_false]
            refine .write doc ?_
            exact
              { report := by simp only [states.report]
                count := count _ _
                leftMemory
                rightMemory }

end Pass

namespace Tree

/-- An engine with fixed answers documents trees alike if their constructs are listed alike:
it writes the same into both, counts the same and fails in the same way. -/
theorem document_inStep
    {Memory : Type}
    {engine : Engine Memory}
    {memory : Memory}
    {replies : Nat -> Except Failure Text}
    {left right : Tree}
    (scripted : engine.Scripted memory replies)
    (overwrite : Bool)
    (alike : List.Forall₂ ListedAlike left.constructs right.constructs) :
    ∃ decisions,
      let run := left.document engine overwrite memory
      let other := right.document engine overwrite memory
      run.1 = left.mapFrames (Frame.decided decisions) ∧
        other.1 = right.mapFrames (Frame.decided decisions) ∧
          other.2.1.report = run.2.1.report ∧ other.2.2 = run.2.2 := by
  have states : Pass.InStep engine memory { memory } { memory } :=
    { report := rfl, count := rfl, leftMemory := rfl, rightMemory := rfl }
  have inStep := Visitor.survey_inStep
    (fun _ _ first _ _ => Pass.visitor_inStep scripted overwrite first) alike states
  simp only [document, visit_eq]
  rcases surveyed : Visitor.survey (Pass.visitor engine overwrite) left.constructs { memory } with
    ⟨decisions, last, failure⟩
  rcases otherSurveyed :
    Visitor.survey (Pass.visitor engine overwrite) right.constructs { memory } with
    ⟨otherDecisions, otherLast, otherFailure⟩
  rw [surveyed, otherSurveyed] at inStep
  obtain ⟨rfl, last, rfl⟩ := inStep
  exact ⟨_, rfl, rfl, last.report, rfl⟩

end Tree
end FortranDocs
