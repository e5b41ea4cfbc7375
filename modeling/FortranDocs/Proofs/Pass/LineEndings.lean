import FortranDocs.Proofs.Pass.Lockstep
import FortranDocs.Proofs.Tree.Returns

/-!
# Line endings in a documentation pass

The constructs of a tree with carriage returns are listed like those of the tree, since a
signature has no white space at its end.  `Tree.document_withReturns` states that a pass over
a source with other line endings gives what the pass over the source gives, with the other
line endings.
-/

namespace FortranDocs

/-- A carriage return at the end of a line is trimmed. -/
theorem Line.trim_withReturn (line : Line) : Text.trim line.withReturn = Text.trim line := by
  have space : isSpace '\r' = true := by decide
  rw [Text.trim, Text.trim, Text.trimStart, withReturn, List.dropWhile_append]
  split
  · next allSpace =>
      rw [Text.trimStart, List.isEmpty_iff.mp allSpace]
      rfl
  · simp [Text.trimStart, Text.trimEnd, LineEnding.tail, space]

namespace Node

theorem listedAlike_withReturnsAll
    (nodes : List Node)
    (depth : Nat)
    (followed : Bool) :
    List.Forall₂ ListedAlike (constructsOfAll depth (withReturnsAll followed nodes))
      (constructsOfAll depth nodes) := by
  induction nodes using inductionAll generalizing depth followed with
  | nil => exact .nil
  | text lines rest restHypothesis =>
      simp only [withReturnsAll, withReturns, constructsOfAll, constructs, List.nil_append]
      exact restHypothesis depth followed
  | construct frame body rest bodyHypothesis restHypothesis =>
      simp only [withReturnsAll, withReturns, constructsOfAll, constructs]
      have first (inner otherInner : List Node) :
          ListedAlike
            (depth,
              { toFrame := frame.withReturns (followed || !rest.isEmpty), body := inner })
            (depth, { toFrame := frame, body := otherInner }) :=
        { depth := rfl
          kind := rfl
          line := rfl
          signature := Line.trim_withReturn frame.opener
          hasDoc := by simp [Frame.hasDoc, Frame.withReturns] }
      exact List.rel_append (.cons (first _ _) (bodyHypothesis (depth + 1) true))
        (restHypothesis depth followed)

end Node

namespace Tree

/-- Documenting a source with a carriage return in front of every line feed is documenting the
source and putting the carriage returns in afterwards, for an engine whose answers do not
depend on what it is asked.  The constructs that have no documentation are the same, and so is
what the pass counts, the failure at which it stops, and the reason for which the source
cannot be read. -/
theorem document_withReturns
    {Memory : Type}
    {engine : Engine Memory}
    {memory : Memory}
    {replies : Nat -> Except Failure Text}
    {source : Text}
    (scripted : engine.Scripted memory replies)
    (plain : '\r' ∉ source)
    (overwrite : Bool) :
    (∀ error,
      parse (Text.withReturns source) = .error error ↔ parse source = .error error) ∧
      ∀ tree, parse source = .ok tree →
        ∃ returned,
          parse (Text.withReturns source) = .ok returned ∧
          returned.undocumented = tree.undocumented ∧
          let run := tree.document engine overwrite memory
          let returnedRun := returned.document engine overwrite memory
          returnedRun.2.1.report = run.2.1.report ∧ returnedRun.2.2 = run.2.2 ∧
            returnedRun.1.source = Text.withReturns run.1.source := by
  rw [parse_withReturns plain]
  constructor
  · intro error
    cases parse source with
    | error failure => simp [Except.map]
    | ok tree => simp [Except.map]
  · intro tree parsed
    have alike : List.Forall₂ ListedAlike tree.withReturns.constructs tree.constructs :=
      Node.listedAlike_withReturnsAll tree.nodes 0 false
    refine ⟨tree.withReturns, by rw [parsed, Except.map], undocumented_of_listedAlike alike, ?_⟩
    obtain ⟨decisions, returned_eq, run_eq, report_eq, failure_eq⟩ :=
      document_inStep scripted overwrite alike
    refine ⟨report_eq.symm, failure_eq.symm, ?_⟩
    rw [returned_eq, run_eq, source_withReturns_mapFrames plain parsed]

/-- A module with documentation around a type without. -/
def pairTree : Tree where
  nodes :=
    [.construct
        { kind := .module
          line := 1
          opener := "module m".toList
          continuation := []
          doc := ["  ! Docs.".toList]
          closing := "end module".toList
          indent := 2 }
        [.text [[]],
          .construct
            { kind := .type
              line := 4
              opener := "  type t".toList
              continuation := []
              doc := []
              closing := "  end type".toList
              indent := 0 }
            []],
      .text [[]]]

/-- The documentation of the module is overwritten by an answer with carriage returns of its
own, and the engine fails at the type. -/
theorem document_withReturns_pairTree :
    let replies := [.ok "One.\r\nTwo.\r".toList, .error (Failure.root "no answer")]
    ∃ returned,
      parse (Text.withReturns pairTree.source) = .ok returned ∧
      returned.undocumented = pairTree.undocumented ∧
      let run := returned.document Engine.prepared true replies
      run.2.1.report = { documented := 1, skipped := 0 } ∧
        run.2.2.map EngineFailure.line = some 4 ∧
        run.1.source =
          ("module m\r\n  ! One.\r\n  ! Two.\r\r\n\r\n  type t\r\n  end type\r\n" ++
            "end module\r\n").toList := by
  intro replies
  have plain : '\r' ∉ pairTree.source := by
    decide +kernel
  have canonical : pairTree.Canonical := by
    decide +kernel
  have parsed : parse pairTree.source = .ok pairTree := parse_eq_ok_iff.mpr ⟨canonical, rfl⟩
  obtain ⟨returned, returnedParsed, undocumented_eq, report_eq, failure_eq, source_eq⟩ :=
    (document_withReturns (Engine.scripted_prepared replies) plain true).2 pairTree parsed
  refine ⟨returned, returnedParsed, undocumented_eq, ?_⟩
  intro run
  simp only [run, report_eq, failure_eq, source_eq]
  decide +kernel

end Tree
end FortranDocs
