import FortranDocs.Proofs.Tree.Outline

/-!
# Trees that are read alike

Lines that a reader takes alike in every respect are cut at the same places, into constructs
with the same headers, documentation blocks and bodies.  `Node.AlikeAll` relates nodes that
differ by such lines alone, and `Node.AlikeAll.canonical` states that a reader who makes the
first nodes of their lines makes the second ones of theirs.
-/

namespace FortranDocs

namespace Line

/-- Two lines that a reader takes alike in every respect. -/
structure Alike (left right : Line) : Prop extends CutsAlike left right where
  isDocumentation_eq : left.isDocumentation = right.isDocumentation
  isBlank_eq : left.isBlank = right.isBlank
  indentWidth_eq : left.indentWidth = right.indentWidth

variable {lefts rights : List Line}

theorem cutsAlike_of_alike (alike : List.Forall₂ Alike lefts rights) :
    List.Forall₂ CutsAlike lefts rights :=
  alike.imp fun _ _ => Alike.toCutsAlike

/-- Lines that a reader takes alike give the same indentation. -/
theorem indentOf_of_alike (alike : List.Forall₂ Alike lefts rights) :
    indentOf lefts = indentOf rights := by
  induction alike with
  | nil => rfl
  | @cons left right _ _ first others inductionHypothesis =>
      cases blank : right.isBlank with
      | false => simp [indentOf, first.isBlank_eq, blank, first.indentWidth_eq]
      | true => simpa [indentOf, first.isBlank_eq, blank] using inductionHypothesis

end Line

namespace Interior

/-- A header goes on through lines that are cut alike. -/
theorem Continues.of_cutsAlike
    {opener otherOpener : Line}
    {continuation otherContinuation others rest : List Line}
    (run : Continues opener continuation others)
    (opensAlike : opener.CutsAlike otherOpener)
    (alike : List.Forall₂ Line.CutsAlike continuation otherContinuation)
    (nothing : others = [] → rest = []) :
    Continues otherOpener otherContinuation rest := by
  induction alike generalizing opener otherOpener with
  | nil =>
      rw [continues_nil_iff] at run ⊢
      intro continued
      exact nothing (run (opensAlike.isContinued_eq.trans continued))
  | cons first _ inductionHypothesis =>
      rw [continues_cons_iff] at run ⊢
      exact ⟨opensAlike.isContinued_eq ▸ run.1, inductionHypothesis run.2 first⟩

/-- The parts of a block are as long as they can be if those of a block alike are. -/
theorem Maximal.of_alike
    {opener otherOpener : Line}
    {interior other : Interior}
    (maximal : Maximal opener interior)
    (opensAlike : opener.CutsAlike otherOpener)
    (continuation : List.Forall₂ Line.Alike interior.continuation other.continuation)
    (doc : List.Forall₂ Line.Alike interior.doc other.doc)
    (body : List.Forall₂ Line.Alike interior.body other.body) :
    Maximal otherOpener other := by
  have run : Continues opener interior.continuation (interior.doc ++ interior.body) :=
    ⟨maximal.continued, fun continued => List.append_eq_nil_iff.mpr (maximal.ended continued)⟩
  have otherRun : Continues otherOpener other.continuation (other.doc ++ other.body) := by
    refine run.of_cutsAlike opensAlike (Line.cutsAlike_of_alike continuation) ?_
    intro nothing
    obtain ⟨noDoc, noBody⟩ := List.append_eq_nil_iff.mp nothing
    rw [noDoc, List.forall₂_nil_left_iff] at doc
    rw [noBody, List.forall₂_nil_left_iff] at body
    rw [doc, body, List.append_nil]
  exact
    { continued := otherRun.continued
      ended := fun continued => List.append_eq_nil_iff.mp (otherRun.ended continued)
      documents :=
        Line.forall_mem_of_forall₂ doc
          (fun _ _ alike documents => alike.isDocumentation_eq ▸ documents) maximal.documents
      bodyStart := by
        intro line first
        cases bodyLines : interior.body with
        | nil =>
            rw [bodyLines, List.forall₂_nil_left_iff] at body
            rw [body] at first
            cases first
        | cons start rest =>
            rw [bodyLines, List.forall₂_cons_left_iff] at body
            obtain ⟨otherStart, _, startAlike, -, body_eq⟩ := body
            rw [body_eq] at first
            cases first
            rw [← startAlike.isDocumentation_eq]
            exact maximal.bodyStart start (by rw [bodyLines]; rfl) }

end Interior

namespace Frame

/-- Two frames that differ by lines alone, which are taken alike. -/
structure Alike (left right : Frame) : Prop where
  kind : left.kind = right.kind
  line : left.line = right.line
  opener : left.opener.Alike right.opener
  continuation : List.Forall₂ Line.Alike left.continuation right.continuation
  doc : List.Forall₂ Line.Alike left.doc right.doc
  closing : left.closing.Alike right.closing
  indent : left.indent = right.indent

theorem WellCut.of_alike
    {frame other : Frame}
    {body otherBody : List Line}
    (wellCut : frame.WellCut body)
    (alike : frame.Alike other)
    (bodyAlike : List.Forall₂ Line.Alike body otherBody) :
    other.WellCut otherBody where
  opened := by
    rw [← alike.opener.openedBy_eq, ← alike.kind]
    exact wellCut.opened
  parts :=
    wellCut.parts.of_alike alike.opener.toCutsAlike alike.continuation alike.doc bodyAlike
  unclosed := by
    rw [← alike.kind]
    have inner := List.rel_append alike.continuation bodyAlike
    exact Line.unclosed_of_cutsAlike (Line.cutsAlike_of_alike inner) wellCut.unclosed
  closed := by
    rw [← alike.kind, ← alike.closing.closes_eq]
    exact wellCut.closed
  indent := by
    rw [← alike.indent, wellCut.indent, Line.indentOf_of_alike bodyAlike]

end Frame

namespace Node

/-- Two sequences of nodes that differ by lines alone, which are taken alike. -/
inductive AlikeAll : List Node -> List Node -> Prop
  | nil : AlikeAll [] []
  | text
      {lines otherLines : List Line}
      {rest otherRest : List Node}
      (alike : List.Forall₂ Line.Alike lines otherLines)
      (restAlike : AlikeAll rest otherRest) :
      AlikeAll (.text lines :: rest) (.text otherLines :: otherRest)
  | construct
      {frame otherFrame : Frame}
      {body otherBody rest otherRest : List Node}
      (alike : frame.Alike otherFrame)
      (bodyAlike : AlikeAll body otherBody)
      (restAlike : AlikeAll rest otherRest) :
      AlikeAll (.construct frame body :: rest) (.construct otherFrame otherBody :: otherRest)

namespace AlikeAll

variable {nodes others : List Node}

/-- Nodes that a reader takes alike have lines that it takes alike. -/
theorem linesOfAll (alike : AlikeAll nodes others) :
    List.Forall₂ Line.Alike (linesOfAll nodes) (Node.linesOfAll others) := by
  induction alike with
  | nil =>
      simp only [Node.linesOfAll]
      exact .nil
  | text alike _ restHypothesis =>
      simp only [Node.linesOfAll, lines]
      exact List.rel_append alike restHypothesis
  | construct alike _ _ bodyHypothesis restHypothesis =>
      simp only [Node.linesOfAll, lines]
      have header := List.Forall₂.cons alike.opener alike.continuation
      have inner := List.rel_append (List.rel_append header alike.doc) bodyHypothesis
      exact List.rel_append (List.rel_append inner (.cons alike.closing .nil)) restHypothesis

theorem head?_isText (alike : AlikeAll nodes others) :
    others.head?.map isText = nodes.head?.map isText := by
  cases alike with
  | nil => rfl
  | text _ _ => rfl
  | construct _ _ _ => rfl

theorem wellCutAll (alike : AlikeAll nodes others) (wellCut : WellCutAll nodes) :
    WellCutAll others := by
  induction alike with
  | nil => exact wellCut
  | text alike restAlike restHypothesis =>
      simp only [WellCutAll, WellCut] at wellCut ⊢
      obtain ⟨⟨nonempty, unopened⟩, separated, restCut⟩ := wellCut
      refine ⟨⟨?_, ?_⟩, ?_, restHypothesis restCut⟩
      · rintro rfl
        exact nonempty (List.forall₂_nil_right_iff.mp alike)
      · exact Line.unopened_of_cutsAlike (Line.cutsAlike_of_alike alike) unopened
      · intro text
        exact isText_eq_false_of_head?_eq restAlike.head?_isText (separated text)
  | construct alike bodyAlike _ bodyHypothesis restHypothesis =>
      simp only [WellCutAll, WellCut, isText, Bool.false_eq_true, false_implies, true_and]
        at wellCut ⊢
      obtain ⟨⟨frameCut, bodyCut⟩, restCut⟩ := wellCut
      exact ⟨⟨frameCut.of_alike alike bodyAlike.linesOfAll, bodyHypothesis bodyCut⟩,
        restHypothesis restCut⟩

/-- Line numbers are right for both of two sequences that a reader takes alike. -/
theorem numberedAll
    {offset : Nat}
    (alike : AlikeAll nodes others)
    (numbered : NumberedAll offset nodes) :
    NumberedAll offset others := by
  induction alike generalizing offset with
  | nil => exact numbered
  | text alike _ restHypothesis =>
      simp only [NumberedAll, Numbered, lines, true_and] at numbered ⊢
      rw [← alike.length_eq]
      exact restHypothesis numbered
  | construct alike bodyAlike _ bodyHypothesis restHypothesis =>
      simp only [NumberedAll, Numbered, lines, Frame.headerLines, List.length_append,
        List.length_cons, ← alike.line, ← alike.continuation.length_eq,
        ← alike.doc.length_eq, ← bodyAlike.linesOfAll.length_eq] at numbered ⊢
      exact ⟨⟨numbered.1.1, bodyHypothesis numbered.1.2⟩, restHypothesis numbered.2⟩

/-- Nodes alike are canonical alike. -/
theorem canonical
    {offset : Nat}
    (alike : AlikeAll nodes others)
    (canonical : Canonical offset nodes) :
    Canonical offset others where
  wellCut := alike.wellCutAll canonical.wellCut
  numbered := alike.numberedAll canonical.numbered

end AlikeAll
end Node

namespace Tree

/-- If a source cannot be read, neither can one that is taken alike line by line, for the same
reason. -/
theorem parse_eq_error_of_alike
    {left right : Text}
    {error : ParseError}
    (alike : List.Forall₂ Line.Alike (Text.splitLines left) (Text.splitLines right))
    (failed : parse left = .error error) :
    parse right = .error error := by
  have outline_eq := outline_parse_of_cutsAlike (Line.cutsAlike_of_alike alike)
  rw [failed] at outline_eq
  cases parsed : parse right with
  | error other =>
      rw [parsed] at outline_eq
      exact congrArg Except.error (Except.error.inj outline_eq.symm)
  | ok tree =>
      rw [parsed] at outline_eq
      cases outline_eq

end Tree
end FortranDocs
