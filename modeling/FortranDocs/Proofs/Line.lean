import FortranDocs.Proofs.Keyword

/-!
# Lines without code

A comment line and a blank line have nothing but white space in front of their
comment.  Such a line opens no block, closes none and is not continued, whatever its
comment says.
-/

namespace FortranDocs

namespace Keyword

/-- A keyword that stands in a text brings a character that is not white space. -/
theorem StandsIn.all_isSpace_eq_false
    {letter : Char}
    {letters text : Text}
    (stands : StandsIn (letter :: letters) text)
    (letterSolid : isSpace letter = false) :
    text.all isSpace = false := by
  obtain ⟨before, word, after, rfl, spelled, -⟩ := stands
  obtain ⟨first, rest, rfl, matched, -⟩ := List.map_eq_cons_iff.mp spelled
  simp [isSpace_eq_false_of_folded letterSolid matched]

/-- So does a closing phrase. -/
theorem ClosingStandsIn.all_isSpace_eq_false
    {keyword text : Text}
    (stands : ClosingStandsIn keyword text) :
    text.all isSpace = false := by
  obtain ⟨before, ending, space, word, after, rfl, ends, -⟩ := stands
  obtain ⟨first, rest, rfl, matched, -⟩ := List.map_eq_cons_iff.mp ends
  simp [isSpace_eq_false_of_folded (by decide) matched]

end Keyword

namespace Line

/-- A line has no code when nothing but white space stands in front of its comment. -/
def Codeless (line : Line) : Prop :=
  (code line).all isSpace = true

namespace Codeless

/-- A line without code opens nothing. -/
theorem opens_eq_false
    {line : Line}
    (codeless : line.Codeless)
    (kind : Kind) :
    kind.opens line = false := by
  obtain ⟨letter, letters, keyword_eq, letterSolid⟩ := kind.keyword_eq_cons
  have nowhere {text : Text} (part : text <+: line.code) :
      ¬ Keyword.StandsIn kind.keyword.toList text := by
    intro stands
    rw [keyword_eq] at stands
    have solid := stands.all_isSpace_eq_false letterSolid
    have blank : text.all isSpace = true := by
      rw [List.all_eq_true]
      intro character present
      exact List.all_eq_true.mp codeless character (part.subset present)
    exact Bool.false_ne_true (solid.symm.trans blank)
  rw [Bool.eq_false_iff, Ne, Kind.opens_iff]
  cases kind with
  | type =>
      rintro ⟨declaration, ⟨rest, code_eq, -⟩, stands, -⟩
      exact nowhere ⟨rest, code_eq.symm⟩ stands
  | _ => exact nowhere (List.prefix_refl _)

theorem openedBy_eq_none {line : Line} (codeless : line.Codeless) :
    Kind.openedBy line = none := by
  rw [Kind.openedBy, List.find?_eq_none]
  intro kind _
  simp [codeless.opens_eq_false kind]

/-- A line without code closes nothing. -/
theorem closes_eq_false
    {line : Line}
    (codeless : line.Codeless)
    (kind : Kind) :
    kind.closes line = false := by
  rw [Bool.eq_false_iff, Ne, Kind.closes_iff]
  intro closed
  exact Bool.false_ne_true (closed.all_isSpace_eq_false.symm.trans codeless)

/-- A line without code is not continued. -/
theorem isContinued_eq_false {line : Line} (codeless : line.Codeless) :
    line.isContinued = false := by
  have trimmed : Text.trimEnd line.code = [] := by
    rw [Text.trimEnd, List.reverse_eq_nil_iff, List.dropWhile_eq_nil_iff]
    intro character present
    exact List.all_eq_true.mp codeless character (List.mem_reverse.mp present)
  simp [isContinued, trimmed]

end Codeless

/-- Scanning stops at a comment marker behind white space. -/
theorem codeFrom_outside_append_marker
    {space : Text}
    (blank : space.all isSpace = true)
    (rest : Line) :
    codeFrom .outside (space ++ '!' :: rest) = space := by
  induction space with
  | nil => simp [codeFrom]
  | cons character space inductionHypothesis =>
      simp only [List.all_cons, Bool.and_eq_true] at blank
      have noMarker : character ≠ '!' := by
        intro equal
        exact absurd (equal ▸ blank.1) (by decide)
      have noApostrophe : character ≠ '\'' := by
        intro equal
        exact absurd (equal ▸ blank.1) (by decide)
      have noQuotation : character ≠ '"' := by
        intro equal
        exact absurd (equal ▸ blank.1) (by decide)
      have stays : Quoting.after .outside character = .outside := by
        unfold Quoting.after
        split <;> simp_all
      simp [codeFrom, noMarker, stays, inductionHypothesis blank.2]

/-- The code of a line is a part of it. -/
theorem codeFrom_sublist (state : Quoting) (line : Line) :
    (codeFrom state line).Sublist line := by
  induction line generalizing state with
  | nil => exact List.Sublist.slnil
  | cons character rest inductionHypothesis =>
      simp only [codeFrom]
      split
      · exact List.nil_sublist _
      · exact (inductionHypothesis _).cons_cons character

/-- A comment line consists of white space, the marker and the comment, besides a
carriage return. -/
theorem isComment_iff {line : Line} :
    line.isComment = true ↔
      ∃ space comment, space.all isSpace = true ∧
        Text.withoutReturn line = space ++ '!' :: comment := by
  simp only [isComment, Text.trimStart, beq_iff_eq]
  constructor
  · intro marked
    obtain ⟨comment, rest_eq⟩ := List.head?_eq_some_iff.mp marked
    refine ⟨(Text.withoutReturn line).takeWhile isSpace, comment, ?_, ?_⟩
    · exact List.all_takeWhile
    · rw [← rest_eq, List.takeWhile_append_dropWhile]
  · rintro ⟨space, comment, blank, line_eq⟩
    rw [List.all_eq_true] at blank
    rw [line_eq, List.dropWhile_append_of_pos blank, List.dropWhile_cons_of_neg (by decide)]
    rfl

theorem codeless_of_isComment {line : Line} (isComment : line.isComment = true) :
    line.Codeless := by
  obtain ⟨space, comment, blank, line_eq⟩ := isComment_iff.mp isComment
  rw [Codeless, code, line_eq, codeFrom_outside_append_marker blank]
  exact blank

theorem codeless_of_isBlank {line : Line} (isBlank : line.isBlank = true) :
    line.Codeless := by
  rw [Codeless, List.all_eq_true]
  intro character present
  exact List.all_eq_true.mp isBlank character ((codeFrom_sublist _ _).subset present)

/-- A comment line is not blank. -/
theorem isBlank_eq_false_of_isComment {line : Line} (isComment : line.isComment = true) :
    line.isBlank = false := by
  obtain ⟨space, comment, -, line_eq⟩ := isComment_iff.mp isComment
  have marker : isSpace '!' = false := by decide
  simp [isBlank, Text.isBlank, line_eq, marker]

/-- A line that opens a block is not blank. -/
theorem isBlank_eq_false_of_openedBy
    {line : Line}
    {kind : Kind}
    (opened : Kind.openedBy line = some kind) :
    line.isBlank = false := by
  cases isBlank : line.isBlank with
  | false => rfl
  | true =>
      have nothing := (codeless_of_isBlank isBlank).openedBy_eq_none
      rw [opened] at nothing
      exact absurd nothing (Option.some_ne_none kind)

end Line
end FortranDocs
