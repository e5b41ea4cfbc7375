import FortranDocs.Proofs.Line
import FortranDocs.Tree.Parse

/-!
# The parts of a block

Header, documentation and body of a block are cut off one after the other, each as
long as it can be.  `Interior.Maximal` says so of the parts alone, and
`Interior.ofLines_eq_iff` states that the cut is the only one with this property.
-/

namespace FortranDocs

namespace Line

/-- A documentation line is a comment line; that it is not blank follows. -/
theorem isDocumentation_eq_isComment (line : Line) :
    line.isDocumentation = line.isComment := by
  cases isComment : line.isComment with
  | false => simp [isDocumentation, isComment]
  | true => simp [isDocumentation, isComment, isBlank_eq_false_of_isComment isComment]

theorem codeless_of_isDocumentation
    {line : Line}
    (documents : line.isDocumentation = true) :
    line.Codeless :=
  codeless_of_isComment (isDocumentation_eq_isComment line ▸ documents)

end Line

namespace Interior

/-- The parts of a block's inner lines are as long as they can be. -/
structure Maximal (opener : Line) (interior : Interior) : Prop where
  /-- Every header line but the last is continued. -/
  continued :
    ∀ line ∈ (opener :: interior.continuation).dropLast, line.isContinued = true
  /-- The last header line is continued only if the header runs up to the closing
  line. -/
  ended :
    ((opener :: interior.continuation).getLast (List.cons_ne_nil _ _)).isContinued = true →
      interior.doc = [] ∧ interior.body = []
  /-- The documentation block holds documentation lines. -/
  documents : ∀ line ∈ interior.doc, line.isDocumentation = true
  /-- The documentation block ends only at another line. -/
  bodyStart : ∀ line, interior.body.head? = some line → line.isDocumentation = false

instance (opener : Line) (interior : Interior) : Decidable (Maximal opener interior) :=
  have : Decidable (∀ line ∈ interior.body.head?, Line.isDocumentation line = false) :=
    Option.decidableForallMem interior.body.head?
  decidable_of_iff
    ((∀ line ∈ (opener :: interior.continuation).dropLast, line.isContinued = true) ∧
      (((opener :: interior.continuation).getLast (List.cons_ne_nil _ _)).isContinued =
          true → interior.doc = [] ∧ interior.body = []) ∧
        (∀ line ∈ interior.doc, line.isDocumentation = true) ∧
          ∀ line ∈ interior.body.head?, line.isDocumentation = false)
    ⟨fun ⟨continued, ended, documents, bodyStart⟩ =>
      { continued, ended, documents, bodyStart },
      fun maximal =>
        ⟨maximal.continued, maximal.ended, maximal.documents, maximal.bodyStart⟩⟩

/-- Continuation lines behind a first header line are a longest run of which each follows
a continued line. -/
structure Continues (opener : Line) (continuation others : List Line) : Prop where
  /-- Every header line but the last is continued. -/
  continued : ∀ line ∈ (opener :: continuation).dropLast, line.isContinued = true
  /-- Nothing follows a last line that is continued. -/
  ended :
    ((opener :: continuation).getLast (List.cons_ne_nil _ _)).isContinued = true →
      others = []

theorem continues_nil_iff {opener : Line} {others : List Line} :
    Continues opener [] others ↔ (opener.isContinued = true → others = []) := by
  constructor
  · intro run
    exact run.ended
  · intro ended
    exact ⟨by simp, ended⟩

theorem continues_cons_iff {opener line : Line} {continuation others : List Line} :
    Continues opener (line :: continuation) others ↔
      opener.isContinued = true ∧ Continues line continuation others := by
  have headers_eq : (opener :: line :: continuation).dropLast =
      opener :: (line :: continuation).dropLast :=
    List.dropLast_cons_of_ne_nil (List.cons_ne_nil _ _)
  have last_eq : (opener :: line :: continuation).getLast (List.cons_ne_nil _ _) =
      (line :: continuation).getLast (List.cons_ne_nil _ _) :=
    List.getLast_cons (List.cons_ne_nil _ _)
  constructor
  · rintro ⟨continued, ended⟩
    rw [headers_eq, List.forall_mem_cons] at continued
    rw [last_eq] at ended
    exact ⟨continued.1, continued.2, ended⟩
  · rintro ⟨openerContinued, continued, ended⟩
    refine ⟨?_, ?_⟩
    · rw [headers_eq, List.forall_mem_cons]
      exact ⟨openerContinued, continued⟩
    · rw [last_eq]
      exact ended

/-- The cut behind the continuation lines is the only one behind such a run. -/
theorem continued_eq_iff
    {opener : Line}
    {inner continuation others : List Line} :
    Interior.continued opener inner = (continuation, others) ↔
      inner = continuation ++ others ∧ Continues opener continuation others := by
  induction inner generalizing opener continuation with
  | nil =>
      simp only [Interior.continued, Prod.mk.injEq]
      constructor
      · rintro ⟨rfl, rfl⟩
        exact ⟨rfl, continues_nil_iff.mpr fun _ => rfl⟩
      · rintro ⟨nothing, -⟩
        obtain ⟨rfl, rfl⟩ := List.append_eq_nil_iff.mp nothing.symm
        exact ⟨rfl, rfl⟩
  | cons line rest inductionHypothesis =>
      simp only [Interior.continued]
      cases continues : opener.isContinued with
      | false =>
          simp only [Bool.false_eq_true, if_false, Prod.mk.injEq]
          cases continuation with
          | nil => simp [continues_nil_iff, continues, eq_comm]
          | cons next more => simp [continues_cons_iff, continues]
      | true =>
          simp only [if_true, Prod.mk.injEq]
          cases continuation with
          | nil =>
              simp only [continues_nil_iff, continues, List.nil_append]
              constructor
              · rintro ⟨nothing, -⟩
                exact absurd nothing (List.cons_ne_nil _ _)
              · rintro ⟨rfl, noRest⟩
                exact absurd (noRest trivial) (List.cons_ne_nil _ _)
          | cons next more =>
              rw [continues_cons_iff]
              constructor
              · rintro ⟨continuation_eq, others_eq⟩
                obtain ⟨rfl, more_eq⟩ := List.cons.inj continuation_eq
                obtain ⟨rest_eq, run⟩ :=
                  inductionHypothesis.mp (Prod.ext more_eq others_eq)
                exact ⟨by rw [rest_eq, List.cons_append], continues, run⟩
              · rintro ⟨inner_eq, -, run⟩
                obtain ⟨rfl, rest_eq⟩ := List.cons.inj inner_eq
                rw [inductionHypothesis.mpr ⟨rest_eq, run⟩]
                exact ⟨rfl, rfl⟩

/-- A run of documentation lines is cut off whole. -/
theorem takeWhile_isDocumentation
    {doc body : List Line}
    (documents : ∀ line ∈ doc, line.isDocumentation = true)
    (bodyStart : ∀ line, body.head? = some line → line.isDocumentation = false) :
    (doc ++ body).takeWhile Line.isDocumentation = doc ∧
      (doc ++ body).dropWhile Line.isDocumentation = body := by
  rw [List.takeWhile_append_of_pos documents, List.dropWhile_append_of_pos documents]
  cases body with
  | nil => simp
  | cons line rest =>
      have stops := bodyStart line rfl
      simp [stops]

/-- The parts of a block are the only ones that are as long as they can be. -/
theorem ofLines_eq_iff
    {opener : Line}
    {inner : List Line}
    {interior : Interior} :
    ofLines opener inner = interior ↔
      inner = interior.continuation ++ interior.doc ++ interior.body ∧
        Maximal opener interior := by
  constructor
  · rintro rfl
    generalize cut : Interior.continued opener inner = parts
    obtain ⟨continuation, others⟩ := parts
    obtain ⟨-, continued, ended⟩ := continued_eq_iff.mp cut
    have ofLines_eq : ofLines opener inner =
        { continuation
          doc := others.takeWhile Line.isDocumentation
          body := others.dropWhile Line.isDocumentation } := by
      simp only [ofLines, cut]
    refine ⟨(ofLines_append opener inner).symm, ?_⟩
    rw [ofLines_eq]
    refine ⟨continued, ?_, ?_, ?_⟩
    · intro lastContinued
      rw [ended lastContinued]
      exact ⟨rfl, rfl⟩
    · intro line present
      exact List.all_eq_true.mp List.all_takeWhile line present
    · intro line first
      have stops := List.head?_dropWhile_not Line.isDocumentation others
      rw [first] at stops
      exact stops
  · rintro ⟨inner_eq, maximal⟩
    have cut : Interior.continued opener inner =
        (interior.continuation, interior.doc ++ interior.body) := by
      refine continued_eq_iff.mpr ⟨by rw [inner_eq, List.append_assoc], maximal.continued, ?_⟩
      intro lastContinued
      obtain ⟨noDoc, noBody⟩ := maximal.ended lastContinued
      rw [noDoc, noBody, List.append_nil]
    obtain ⟨doc_eq, body_eq⟩ :=
      takeWhile_isDocumentation maximal.documents maximal.bodyStart
    simp only [ofLines, cut, doc_eq, body_eq]

end Interior

namespace Split

/-- The inner lines of a block are its parts. -/
theorem interior_append (split : Split) :
    split.interior.continuation ++ split.interior.doc ++ split.interior.body = split.inner :=
  Interior.ofLines_append split.opener split.inner

theorem length_inner (split : Split) :
    split.inner.length =
      split.interior.continuation.length + split.interior.doc.length +
        split.interior.body.length := by
  rw [← List.length_append, ← List.length_append, interior_append]

end Split
end FortranDocs
