import FortranDocs.Proofs.Pass.Course

/-!
# What an engine is shown

The requests of a documentation pass are told by the tree as it was before the pass.  What
the engine answers decides only how far the pass gets: `Tree.requests_of_document`.
-/

namespace FortranDocs

/-! ## The texts of constructs -/

namespace Tree

/-- The text of a construct is a contiguous run of lines of the source that it was read
from. -/
theorem splitLines_source_isInfix
    {source : Text}
    {tree : Tree}
    {construct : Construct}
    (parsed : parse source = .ok tree)
    (present : construct ∈ tree.constructs.map Prod.snd) :
    Text.splitLines construct.source <:+: Text.splitLines source := by
  obtain ⟨lines_eq, -⟩ := parse_eq_ok_iff_lines.mp parsed
  obtain ⟨found, inTree, rfl⟩ := List.mem_map.mp present
  rw [splitLines_source_of_mem parsed inTree, ← lines_eq]
  exact Node.lines_isInfix_of_mem_constructsOfAll inTree

end Tree

/-! ## Requests -/

namespace Construct

/-- The requests for those of some constructs that an engine is asked about. -/
def requestsDue (overwrite : Bool) (constructs : List Construct) : List Request :=
  (constructs.filter (isDue overwrite)).map request

theorem requestsDue_cons
    {overwrite : Bool}
    {construct : Construct}
    (due : construct.isDue overwrite = true)
    (rest : List Construct) :
    requestsDue overwrite (construct :: rest) =
      construct.request :: requestsDue overwrite rest := by
  rw [requestsDue, List.filter_cons_of_pos due, List.map_cons, requestsDue]

theorem requestsDue_cons_of_isDue_eq_false
    {overwrite : Bool}
    {construct : Construct}
    (notDue : construct.isDue overwrite = false)
    (rest : List Construct) :
    requestsDue overwrite (construct :: rest) = requestsDue overwrite rest := by
  rw [requestsDue, List.filter_cons_of_neg (by simp [notDue]), requestsDue]

end Construct

/-- The requests of a pass are the first ones that are due, and all of them unless the engine
fails. -/
theorem Engine.Passes.exists_requestsDue_eq
    {Memory : Type}
    {engine : Engine Memory}
    {overwrite : Bool}
    {constructs : List Construct}
    {memory : Memory}
    {course : Course Memory}
    (passes : engine.Passes overwrite constructs memory course) :
    ∃ missing, Construct.requestsDue overwrite constructs = course.requests ++ missing ∧
      (course.failure = none → missing = []) := by
  induction passes with
  | finished memory => exact ⟨[], rfl, fun _ => rfl⟩
  | passedOver notDue onward inductionHypothesis =>
      rwa [Construct.requestsDue_cons_of_isDue_eq_false notDue]
  | unanswered due answers blank onward inductionHypothesis =>
      obtain ⟨missing, due_eq, complete⟩ := inductionHypothesis
      refine ⟨missing, ?_, complete⟩
      rw [Construct.requestsDue_cons due, due_eq, List.cons_append]
  | answered due answers solid onward inductionHypothesis =>
      obtain ⟨missing, due_eq, complete⟩ := inductionHypothesis
      refine ⟨missing, ?_, complete⟩
      rw [Construct.requestsDue_cons due, due_eq, List.cons_append]
  | failed due fails rest =>
      refine ⟨Construct.requestsDue _ rest, Construct.requestsDue_cons due rest, ?_⟩
      exact fun succeeds => absurd succeeds (Option.some_ne_none _)

/-- The requests of a pass are those that the engine gets: asked them in a row it gives answers, and
then the failure at which the pass stops, and it remembers what it remembers after the pass. -/
theorem Engine.Passes.exists_replies_eq
    {Memory : Type}
    {engine : Engine Memory}
    {overwrite : Bool}
    {constructs : List Construct}
    {memory : Memory}
    {course : Course Memory}
    (passes : engine.Passes overwrite constructs memory course) :
    (∃ answers : List Text,
      engine.replies course.requests memory =
        answers.map .ok ++ course.failure.toList.map fun stopped => .error stopped.cause) ∧
      engine.after memory course.requests = course.memory := by
  induction passes with
  | finished memory => exact ⟨⟨[], rfl⟩, rfl⟩
  | passedOver notDue onward inductionHypothesis => exact inductionHypothesis
  | @unanswered construct rest memory next answer course due answered blank onward
      inductionHypothesis =>
      obtain ⟨⟨answers, replies_eq⟩, after_eq⟩ := inductionHypothesis
      refine ⟨⟨answer :: answers, ?_⟩, ?_⟩
      · rw [replies_cons answered, replies_eq, List.map_cons, List.cons_append]
      · rw [after_cons answered, after_eq]
  | @answered construct rest memory next answer course due answered solid onward
      inductionHypothesis =>
      obtain ⟨⟨answers, replies_eq⟩, after_eq⟩ := inductionHypothesis
      refine ⟨⟨answer :: answers, ?_⟩, ?_⟩
      · rw [replies_cons answered, replies_eq, List.map_cons, List.cons_append]
      · rw [after_cons answered, after_eq]
  | failed due fails rest =>
      refine ⟨⟨[], ?_⟩, ?_⟩
      · rw [replies_cons fails]
        rfl
      · exact after_cons fails []

namespace Tree

/-- Without a failure the engine is shown all that is due. -/
theorem requests_eq_of_success
    {Memory : Type}
    {engine : Engine Memory}
    {overwrite : Bool}
    {tree result : Tree}
    {memory : Memory}
    {pass : Pass Memory}
    (run : tree.document engine overwrite memory = (result, pass, none)) :
    pass.requests =
      Construct.requestsDue overwrite (tree.constructs.map Prod.snd) := by
  obtain ⟨course, last, document_eq, passes, records⟩ :=
    tree.document_eq engine overwrite memory
  rw [run, Prod.mk.injEq, Prod.mk.injEq] at document_eq
  obtain ⟨-, rfl, succeeds⟩ := document_eq
  obtain ⟨missing, due_eq, complete⟩ := passes.exists_requestsDue_eq
  rw [due_eq, complete succeeds.symm, records.requests, List.nil_append, List.append_nil]

/-- An engine is shown the constructs that it is asked about as they were before the pass,
in pre-order: all of them if it does not fail, and else those up to the one that it fails
at.  Asked the same in a row it replies as in the pass, and remembers the same.  So two engines
that do not fail are shown the same, whatever they answer, and of a tree that was read they are
shown contiguous runs of lines of the source. -/
theorem requests_of_document
    {Memory : Type}
    (engine : Engine Memory)
    (overwrite : Bool)
    (tree : Tree)
    (memory : Memory) :
    let constructs := tree.constructs.map Prod.snd
    let due := Construct.requestsDue overwrite constructs
    ∃ result pass failure,
      tree.document engine overwrite memory = (result, pass, failure) ∧
      pass.requests <+: due ∧
      (failure = none → pass.requests = due) ∧
      (∃ answers : List Text,
        engine.replies pass.requests memory =
          answers.map .ok ++ failure.toList.map fun stopped => .error stopped.cause) ∧
      engine.after memory pass.requests = pass.memory ∧
      (∀ stopped, failure = some stopped →
        ∃ construct ∈ constructs, ∃ before,
          pass.requests.getLast? = some construct.request ∧
          engine.answer construct.request before = (.error stopped.cause, pass.memory) ∧
          stopped = engine.failureAt construct stopped.cause) ∧
      (∀ (OtherMemory : Type) (other : Engine OtherMemory) otherMemory otherResult otherPass,
        failure = none →
          tree.document other overwrite otherMemory = (otherResult, otherPass, none) →
            otherPass.requests = pass.requests) ∧
      ∀ source, parse source = .ok tree →
        ∀ request ∈ pass.requests,
          Text.splitLines request.source <:+: Text.splitLines source := by
  intro constructs due
  obtain ⟨course, pass, document_eq, passes, records⟩ :=
    tree.document_eq engine overwrite memory
  obtain ⟨missing, due_eq, complete⟩ := passes.exists_requestsDue_eq
  have requests_eq : pass.requests = course.requests := by
    rw [records.requests, List.nil_append]
  have isPrefix : pass.requests <+: due :=
    ⟨missing, by rw [requests_eq, ← due_eq]⟩
  obtain ⟨replies_eq, after_eq⟩ := passes.exists_replies_eq
  rw [← requests_eq] at replies_eq after_eq
  refine ⟨_, pass, course.failure, document_eq, isPrefix, ?_, replies_eq,
    after_eq.trans records.memory.symm, ?_, ?_, ?_⟩
  · intro succeeds
    rw [requests_eq]
    simp only [due, constructs, due_eq, complete succeeds, List.append_nil]
  · intro stopped fails
    obtain ⟨construct, before, cause, found, failsThere, rfl, last⟩ :=
      passes.exists_of_failure fails
    refine ⟨construct, List.mem_of_getElem? found, before, ?_, ?_, rfl⟩
    · rw [requests_eq, last]
    · rw [records.memory]
      exact failsThere
  · intro OtherMemory other otherMemory otherResult otherPass succeeds otherRun
    rw [succeeds] at document_eq
    rw [requests_eq_of_success otherRun, requests_eq_of_success document_eq]
  · intro source parsed request present
    obtain ⟨construct, inDue, rfl⟩ := List.mem_map.mp (isPrefix.subset present)
    exact splitLines_source_isInfix parsed (List.mem_of_mem_filter inDue)

/-- An engine that answers and one that has nothing to say are shown the same of the nested
module, though only the first one changes it. -/
theorem requests_of_document_nestedTree :
    let told := nestedTree.document (Engine.dummy "To do.".toList) true ()
    let silent := nestedTree.document Engine.prepared true []
    told.1 ≠ silent.1 ∧ told.2.1.requests = silent.2.1.requests ∧
      ∀ request ∈ told.2.1.requests,
        Text.splitLines request.source <:+: Text.splitLines nestedSource := by
  intro told silent
  obtain ⟨result, pass, failure, document_eq, -, -, -, -, -, sameShown, contiguous⟩ :=
    requests_of_document (Engine.dummy "To do.".toList) true nestedTree ()
  have succeeds : told.2.2 = none := by
    decide +kernel
  have silentSucceeds : silent.2.2 = none := by
    decide +kernel
  refine ⟨by decide +kernel, ?_, ?_⟩
  · simp only [told, document_eq] at succeeds ⊢
    exact (sameShown _ Engine.prepared [] silent.1 silent.2.1 succeeds
      (Prod.ext rfl (Prod.ext rfl silentSucceeds))).symm
  · simp only [told, document_eq]
    exact contiguous nestedSource parse_nestedSource

end Tree
end FortranDocs
