import FortranDocs.Proofs.Tree.RoundTrip
import FortranDocs.Proofs.Tree.Visiting

/-!
# The course of a documentation pass

`Engine.Passes` describes a pass over constructs in a row by what the engine answers, one
rule for each way in which a construct may be dealt with.  `Tree.document_eq` states that
documenting a tree is such a pass over its constructs in pre-order, and that nothing but
what was decided on the way is written into the tree.
-/

namespace FortranDocs

namespace Construct

/-- What an engine is asked about a construct. -/
def request (construct : Construct) : Request where
  kind := construct.kind
  source := construct.source

/-- An engine is asked about a construct unless there is documentation that may not be
overwritten. -/
def isDue (overwrite : Bool) (construct : Construct) : Bool :=
  overwrite || !construct.hasDoc

theorem isDue_eq (overwrite : Bool) (construct : Construct) :
    construct.isDue overwrite = !(construct.hasDoc && !overwrite) := by
  cases overwrite <;> simp [isDue]

end Construct

/-- The course of a pass. -/
structure Course (Memory : Type) where
  /-- For each construct that the pass got through, the documentation to write, if any. -/
  decisions : List (Option Text)
  /-- The requests made, in order. -/
  requests : List Request
  /-- What the engine remembers in the end. -/
  memory : Memory
  /-- The failure at which the pass stopped, if it did. -/
  failure : Option EngineFailure

namespace Engine

variable {Memory : Type}

/-- The failure of an engine at a construct. -/
def failureAt
    (engine : Engine Memory)
    (construct : Construct)
    (cause : Failure) :
    EngineFailure where
  engine := engine.name
  line := construct.line
  signature := construct.signature
  cause

/-- The engine that gives prepared replies one after the other, and has nothing to say when
they are used up. -/
def prepared : Engine (List (Except Failure Text)) where
  name := "prepared"
  answer := fun _ replies =>
    match replies with
    | [] => (.ok [], [])
    | reply :: rest => (reply, rest)

/-- What an engine remembers after some requests. -/
def after (engine : Engine Memory) (memory : Memory) (requests : List Request) : Memory :=
  requests.foldl (fun memory request => (engine.answer request memory).2) memory

theorem after_concat
    (engine : Engine Memory)
    (memory : Memory)
    (requests : List Request)
    (request : Request) :
    engine.after memory (requests ++ [request]) =
      (engine.answer request (engine.after memory requests)).2 := by
  rw [after, List.foldl_concat, after]

/-- What an engine replies to requests in a row. -/
def replies (engine : Engine Memory) : List Request -> Memory -> List (Except Failure Text)
  | [], _ => []
  | request :: rest, memory =>
      let (reply, memory) := engine.answer request memory
      reply :: engine.replies rest memory

theorem after_cons
    {engine : Engine Memory}
    {request : Request}
    {memory next : Memory}
    {reply : Except Failure Text}
    (replied : engine.answer request memory = (reply, next))
    (rest : List Request) :
    engine.after memory (request :: rest) = engine.after next rest := by
  rw [after, List.foldl_cons, replied, after]

theorem replies_cons
    {engine : Engine Memory}
    {request : Request}
    {memory next : Memory}
    {reply : Except Failure Text}
    (replied : engine.answer request memory = (reply, next))
    (rest : List Request) :
    engine.replies (request :: rest) memory = reply :: engine.replies rest next := by
  rw [replies, replied]

/-- A pass over constructs in a row, from what the engine remembers at its start. -/
inductive Passes (engine : Engine Memory) (overwrite : Bool) :
    List Construct -> Memory -> Course Memory -> Prop
  /-- No construct is left. -/
  | finished (memory : Memory) :
      Passes engine overwrite [] memory
        { decisions := [], requests := [], memory, failure := none }
  /-- The engine is not asked about the first construct. -/
  | passedOver
      {construct : Construct}
      {rest : List Construct}
      {memory : Memory}
      {course : Course Memory}
      (notDue : construct.isDue overwrite = false)
      (onward : Passes engine overwrite rest memory course) :
      Passes engine overwrite (construct :: rest) memory
        { course with decisions := none :: course.decisions }
  /-- The engine has nothing to say about the first construct. -/
  | unanswered
      {construct : Construct}
      {rest : List Construct}
      {memory next : Memory}
      {answer : Text}
      {course : Course Memory}
      (due : construct.isDue overwrite = true)
      (answers : engine.answer construct.request memory = (.ok answer, next))
      (blank : Text.isBlank answer = true)
      (onward : Passes engine overwrite rest next course) :
      Passes engine overwrite (construct :: rest) memory
        { course with
          decisions := none :: course.decisions
          requests := construct.request :: course.requests }
  /-- The answer is written into the first construct. -/
  | answered
      {construct : Construct}
      {rest : List Construct}
      {memory next : Memory}
      {answer : Text}
      {course : Course Memory}
      (due : construct.isDue overwrite = true)
      (answers : engine.answer construct.request memory = (.ok answer, next))
      (solid : Text.isBlank answer = false)
      (onward : Passes engine overwrite rest next course) :
      Passes engine overwrite (construct :: rest) memory
        { course with
          decisions := some answer :: course.decisions
          requests := construct.request :: course.requests }
  /-- The engine fails at the first construct. -/
  | failed
      {construct : Construct}
      {memory next : Memory}
      {cause : Failure}
      (due : construct.isDue overwrite = true)
      (fails : engine.answer construct.request memory = (.error cause, next))
      (rest : List Construct) :
      Passes engine overwrite (construct :: rest) memory
        { decisions := []
          requests := [construct.request]
          memory := next
          failure := some (engine.failureAt construct cause) }

end Engine

namespace Pass

variable {Memory : Type}

/-- The pass behind a construct that is left alone. -/
def leaving (pass : Pass Memory) : Pass Memory :=
  { pass with report := { pass.report with skipped := pass.report.skipped + 1 } }

/-- The pass behind a construct that is written into. -/
def writing (pass : Pass Memory) : Pass Memory :=
  { pass with report := { pass.report with documented := pass.report.documented + 1 } }

/-- The pass behind a request, with what the engine remembers then. -/
def asking (construct : Construct) (memory : Memory) (pass : Pass Memory) : Pass Memory :=
  { pass with memory, requests := pass.requests ++ [construct.request] }

/-- What the visitor of a pass does with a construct. -/
theorem visitor_cases
    (engine : Engine Memory)
    (overwrite : Bool)
    (depth : Nat)
    (construct : Construct)
    (pass : Pass Memory) :
    let visit := Pass.visitor engine overwrite depth construct pass
    (construct.isDue overwrite = false ∧ visit = .keep pass.leaving) ∨
      construct.isDue overwrite = true ∧
        ((∃ cause memory, engine.answer construct.request pass.memory = (.error cause, memory) ∧
            visit = .stop (engine.failureAt construct cause) (pass.asking construct memory)) ∨
          ∃ answer memory, engine.answer construct.request pass.memory = (.ok answer, memory) ∧
            ((Text.isBlank answer = true ∧
                ∃ blanks, visit =
                  .keep { (pass.asking construct memory).leaving with blanks }) ∨
              Text.isBlank answer = false ∧
                visit = .write answer (pass.asking construct memory).writing)) := by
  intro visit
  have kept_eq := construct.isDue_eq overwrite
  cases due : construct.isDue overwrite with
  | false =>
      rw [due, eq_comm, Bool.not_eq_false'] at kept_eq
      refine .inl ⟨rfl, ?_⟩
      simp only [visit, Pass.visitor, kept_eq, if_true, leaving]
  | true =>
      rw [due, eq_comm, Bool.not_eq_true'] at kept_eq
      refine .inr ⟨rfl, ?_⟩
      rcases answers : engine.answer construct.request pass.memory with
        ⟨cause | answer, memory⟩
      · refine .inl ⟨cause, memory, rfl, ?_⟩
        rw [Construct.request] at answers
        simp only [visit, Pass.visitor, kept_eq, Bool.false_eq_true, if_false, answers]
        rfl
      · refine .inr ⟨answer, memory, rfl, ?_⟩
        rw [Construct.request] at answers
        cases blank : Text.isBlank answer with
        | true =>
            refine .inl ⟨rfl, pass.blanks ++ [(construct.line, construct.kind)], ?_⟩
            simp only [visit, Pass.visitor, kept_eq, Bool.false_eq_true, if_false, answers,
              blank, if_true]
            rfl
        | false =>
            refine .inr ⟨rfl, ?_⟩
            simp only [visit, Pass.visitor, kept_eq, Bool.false_eq_true, if_false, answers,
              blank]
            rfl

/-- What a pass keeps of its course, between two of its states. -/
structure Records (before after : Pass Memory) (course : Course Memory) : Prop where
  /-- What the engine remembers. -/
  memory : after.memory = course.memory
  /-- The requests come behind those made before. -/
  requests : after.requests = before.requests ++ course.requests
  /-- What was written is counted as documented. -/
  documented :
    after.report.documented =
      before.report.documented + course.decisions.countP Option.isSome
  /-- Every decision is counted. -/
  counted :
    after.report.documented + after.report.skipped =
      before.report.documented + before.report.skipped + course.decisions.length

/-- What is recorded at a first construct stands in front of what is recorded later. -/
theorem Records.behind
    {before between after : Pass Memory}
    {course : Course Memory}
    {asked : List Request}
    (onward : between.Records after course)
    (decision : Option Text)
    (requests : between.requests = before.requests ++ asked)
    (documented :
      between.report.documented = before.report.documented + [decision].countP Option.isSome)
    (counted :
      between.report.documented + between.report.skipped =
        before.report.documented + before.report.skipped + 1) :
    before.Records after
      { course with
        decisions := decision :: course.decisions
        requests := asked ++ course.requests } where
  memory := onward.memory
  requests := by rw [onward.requests, requests, List.append_assoc]
  documented := by
    rw [onward.documented, documented, Nat.add_assoc, ← List.countP_append,
      List.singleton_append]
  counted := by
    have countedOnward := onward.counted
    simp only [List.length_cons]
    omega

end Pass

/-- A survey with the visitor of a pass is a pass, and the visitor keeps record of it. -/
theorem Engine.passes_survey
    {Memory : Type}
    (engine : Engine Memory)
    (overwrite : Bool)
    (constructs : List (Nat × Construct))
    (pass : Pass Memory) :
    ∃ (course : Course Memory) (last : Pass Memory),
      Visitor.survey (Pass.visitor engine overwrite) constructs pass =
        (course.decisions, last, course.failure) ∧
      engine.Passes overwrite (constructs.map Prod.snd) pass.memory course ∧
      pass.Records last course := by
  induction constructs generalizing pass with
  | nil =>
      refine ⟨_, pass, rfl, .finished pass.memory, ?_⟩
      exact { memory := rfl, requests := by simp, documented := rfl, counted := rfl }
  | cons shown rest inductionHypothesis =>
      obtain ⟨depth, construct⟩ := shown
      rcases Pass.visitor_cases engine overwrite depth construct pass with
        ⟨notDue, visits⟩ | ⟨due, ⟨cause, memory, fails, visits⟩ |
          ⟨answer, memory, answers, ⟨blank, blanks, visits⟩ | ⟨solid, visits⟩⟩⟩
      · obtain ⟨course, last, surveyed, passes, records⟩ := inductionHypothesis pass.leaving
        refine ⟨_, last, ?_, .passedOver notDue passes, ?_⟩
        · simp only [Visitor.survey, visits, surveyed]
        · have requests_eq : pass.leaving.requests = pass.requests ++ [] :=
            (List.append_nil _).symm
          exact records.behind none requests_eq rfl (Nat.add_assoc _ _ _).symm
      · refine ⟨_, pass.asking construct memory, ?_, .failed due fails _, ?_⟩
        · simp only [Visitor.survey, visits]
        · exact { memory := rfl, requests := rfl, documented := rfl, counted := rfl }
      · obtain ⟨course, last, surveyed, passes, records⟩ :=
          inductionHypothesis { (pass.asking construct memory).leaving with blanks }
        refine ⟨_, last, ?_, .unanswered due answers blank passes, ?_⟩
        · simp only [Visitor.survey, visits, surveyed]
        · exact records.behind none rfl rfl (Nat.add_assoc _ _ _).symm
      · obtain ⟨course, last, surveyed, passes, records⟩ :=
          inductionHypothesis (pass.asking construct memory).writing
        refine ⟨_, last, ?_, .answered due answers solid passes, ?_⟩
        · simp only [Visitor.survey, visits, surveyed]
        · exact records.behind (some answer) rfl rfl (Nat.add_right_comm _ _ _)

namespace Engine.Passes

variable
  {Memory : Type}
  {engine : Engine Memory}
  {overwrite : Bool}
  {constructs : List Construct}
  {memory : Memory}
  {course : Course Memory}

/-- A pass that does not fail gets through all constructs. -/
theorem length_decisions
    (passes : engine.Passes overwrite constructs memory course)
    (succeeds : course.failure = none) :
    course.decisions.length = constructs.length := by
  induction passes with
  | finished memory => rfl
  | passedOver notDue onward inductionHypothesis =>
      rw [List.length_cons, List.length_cons, inductionHypothesis succeeds]
  | unanswered due answers blank onward inductionHypothesis =>
      rw [List.length_cons, List.length_cons, inductionHypothesis succeeds]
  | answered due answers solid onward inductionHypothesis =>
      rw [List.length_cons, List.length_cons, inductionHypothesis succeeds]
  | failed due fails rest => exact absurd succeeds (Option.some_ne_none _)

/-- A pass that fails stops at the construct behind those that it got through, and the
request for it is the last one. -/
theorem exists_of_failure
    {failure : EngineFailure}
    (passes : engine.Passes overwrite constructs memory course)
    (fails : course.failure = some failure) :
    ∃ construct before cause,
      constructs[course.decisions.length]? = some construct ∧
      engine.answer construct.request before = (.error cause, course.memory) ∧
      failure = engine.failureAt construct cause ∧
      course.requests.getLast? = some construct.request := by
  induction passes with
  | finished memory => exact absurd fails.symm (Option.some_ne_none _)
  | passedOver notDue onward inductionHypothesis => exact inductionHypothesis fails
  | unanswered due answers blank onward inductionHypothesis =>
      obtain ⟨construct, before, cause, found, failsThere, failure_eq, last⟩ :=
        inductionHypothesis fails
      refine ⟨construct, before, cause, found, failsThere, failure_eq, ?_⟩
      simp [List.getLast?_cons, last]
  | answered due answers solid onward inductionHypothesis =>
      obtain ⟨construct, before, cause, found, failsThere, failure_eq, last⟩ :=
        inductionHypothesis fails
      refine ⟨construct, before, cause, found, failsThere, failure_eq, ?_⟩
      simp [List.getLast?_cons, last]
  | failed due failsHere rest =>
      exact ⟨_, _, _, rfl, failsHere, (Option.some.inj fails).symm, rfl⟩

end Engine.Passes

namespace Tree

/-- Documenting a tree is a pass over its constructs in pre-order.  What was decided in the
pass is written, and nothing else is changed. -/
theorem document_eq
    {Memory : Type}
    (engine : Engine Memory)
    (overwrite : Bool)
    (tree : Tree)
    (memory : Memory) :
    ∃ (course : Course Memory) (pass : Pass Memory),
      tree.document engine overwrite memory =
        (tree.mapFrames (Frame.decided course.decisions), pass, course.failure) ∧
      engine.Passes overwrite (tree.constructs.map Prod.snd) memory course ∧
      Pass.Records { memory } pass course := by
  obtain ⟨course, last, surveyed, passes, records⟩ :=
    engine.passes_survey overwrite tree.constructs { memory }
  refine ⟨course, last, ?_, passes, records⟩
  rw [document, visit_eq, surveyed]

/-- A documentation pass goes through the constructs of a tree once and in pre-order, as
`Engine.Passes` describes.  If the engine does not fail, every construct is counted and the
answers that are not blank are written.  If it fails, the pass stops at the construct that
the failure names, and this construct and all behind it are left as they were. -/
theorem document_in_one_pass
    {Memory : Type}
    (engine : Engine Memory)
    (overwrite : Bool)
    (tree : Tree)
    (memory : Memory) :
    let constructs := tree.constructs.map Prod.snd
    ∃ (course : Course Memory) (result : Tree) (pass : Pass Memory),
      tree.document engine overwrite memory = (result, pass, course.failure) ∧
      engine.Passes overwrite constructs memory course ∧
      result = tree.mapFrames (Frame.decided course.decisions) ∧
      pass.memory = course.memory ∧ pass.requests = course.requests ∧
      pass.report.documented = course.decisions.countP Option.isSome ∧
      pass.report.documented + pass.report.skipped = course.decisions.length ∧
      (course.failure = none → course.decisions.length = constructs.length) ∧
      ∀ failure, course.failure = some failure →
        (∃ construct before cause,
          constructs[course.decisions.length]? = some construct ∧
          engine.answer construct.request before = (.error cause, course.memory) ∧
          failure.toFailure = cause.within
            (s!"{engine.name} engine failed on line {construct.line}: " ++
              String.ofList construct.signature)) ∧
        ∀ index, course.decisions.length ≤ index →
          result.constructs[index]? = tree.constructs[index]? := by
  intro constructs
  obtain ⟨course, pass, document_eq, passes, records⟩ :=
    tree.document_eq engine overwrite memory
  refine ⟨course, _, pass, document_eq, passes, rfl, records.memory, ?_, ?_, ?_,
    passes.length_decisions, ?_⟩
  · simpa using records.requests
  · simpa using records.documented
  · simpa using records.counted
  · intro failure fails
    obtain ⟨construct, before, cause, found, failsThere, failure_eq, -⟩ :=
      passes.exists_of_failure fails
    refine ⟨⟨construct, before, cause, found, failsThere, ?_⟩, ?_⟩
    · rw [failure_eq]
      rfl
    · intro index beyond
      rw [getElem?_constructs_mapFrames]
      simp only [Construct.mapFrames_decided_of_length_le beyond, Option.map_id_fun', id_eq]

/-- In the nested module nothing is asked about the module itself, the type gets an answer,
and the engine fails at the procedure. -/
theorem document_in_one_pass_nestedTree :
    let run := nestedTree.document Engine.prepared false
      [.ok "To do.".toList, .error (Failure.root "no answer")]
    run.2.1.report = { documented := 1, skipped := 1 } ∧
      run.2.2.map (fun failure => failure.toFailure.message) =
        some "prepared engine failed on line 10: subroutine s" ∧
      ∀ index, 2 ≤ index → run.1.constructs[index]? = nestedTree.constructs[index]? := by
  intro run
  obtain ⟨course, result, pass, document_eq, -, -, -, -, -, counted, -, stops⟩ :=
    document_in_one_pass Engine.prepared false nestedTree
      [.ok "To do.".toList, .error (Failure.root "no answer")]
  have report_eq : run.2.1.report = { documented := 1, skipped := 1 } := by
    decide +kernel
  have message_eq : run.2.2.map (fun failure => failure.toFailure.message) =
      some "prepared engine failed on line 10: subroutine s" := by
    decide +kernel
  refine ⟨report_eq, message_eq, ?_⟩
  simp only [run, document_eq] at report_eq message_eq ⊢
  have length_eq : course.decisions.length = 2 := by
    rw [report_eq] at counted
    exact counted.symm
  obtain ⟨failure, fails, -⟩ := Option.map_eq_some_iff.mp message_eq
  rw [← length_eq]
  exact (stops failure fails).2

end Tree
end FortranDocs
