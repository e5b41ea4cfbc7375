import FortranDocs.Kind

/-!
# Lines cut around a block

A block starts at a given line and ends at the first later line that closes its
kind.  `Split.around` cuts a list of lines there; `Split.lines_around` states that
nothing is lost.
-/

namespace FortranDocs

/-- Why a source cannot be split into blocks: an opened block has no closing
line, or blocks are nested deeper than is read.  Lines are counted from one. -/
inductive ParseError
  | endNotFound (kind : Kind) (line : Nat)
  | nestingTooDeep (limit : Nat)
  deriving DecidableEq, Repr

namespace ParseError

/-- The wording of an error. -/
def message : ParseError -> String
  | .endNotFound kind line =>
      let keyword := kind.keyword
      s!"no `end {keyword}` statement found for the {keyword} opened at line {line}"
  | .nestingTooDeep limit => s!"constructs nested deeper than {limit} levels"

/-- The same error in a source that has more lines in front. -/
def shift (count : Nat) : ParseError -> ParseError
  | .endNotFound kind line => .endNotFound kind (line + count)
  | .nestingTooDeep limit => .nestingTooDeep limit

end ParseError

/-- Lines cut around one block, whose own lines are the opening line, the inner
lines and the closing line. -/
structure Split where
  /-- The lines in front of the block. -/
  before : List Line
  /-- The first line of the block. -/
  opener : Line
  /-- The lines of the block between its first and its last. -/
  inner : List Line
  /-- The last line of the block. -/
  closing : Line
  /-- The lines behind the block. -/
  after : List Line
  deriving DecidableEq, Repr

namespace Split

/-- The lines of the block itself. -/
def block (split : Split) : List Line :=
  split.opener :: split.inner ++ [split.closing]

/-- All lines, in order. -/
def lines (split : Split) : List Line :=
  split.before ++ split.block ++ split.after

/-- The index of the closing line among all lines. -/
def closingIndex (split : Split) : Nat :=
  split.before.length + split.inner.length + 1

/-- Cut at the first line that closes a kind: the lines in front of it, the line
itself and the lines behind it. -/
def atClosing (kind : Kind) : List Line -> Option (List Line × Line × List Line)
  | [] => none
  | line :: rest =>
      if kind.closes line then
        some ([], line, rest)
      else
        (atClosing kind rest).map fun (inner, closing, after) =>
          (line :: inner, closing, after)

/-- Cut lines around the block that starts at a given index, whether or not the
line there opens one.  The opening line is never its own closing line.  The index is
any number here, as that of a line that there is; `Slices.around?` cuts at the indices
of a machine. -/
def around (kind : Kind) (start : Nat) (lines : List Line) : Except ParseError Split :=
  match lines.drop start with
  | [] => .error (.endNotFound kind (start + 1))
  | opener :: following =>
      match atClosing kind following with
      | none => .error (.endNotFound kind (start + 1))
      | some (inner, closing, after) =>
          .ok { before := lines.take start, opener, inner, closing, after }

/-- A cut at the first closing line, read off the lines. -/
theorem atClosing_eq_some_iff
    {kind : Kind}
    {lines inner after : List Line}
    {closing : Line} :
    atClosing kind lines = some (inner, closing, after) ↔
      lines = inner ++ closing :: after ∧
        (∀ line ∈ inner, kind.closes line = false) ∧ kind.closes closing = true := by
  induction lines generalizing inner with
  | nil => simp [atClosing]
  | cons line rest inductionHypothesis =>
      simp only [atClosing]
      cases closesHere : kind.closes line with
      | true =>
          cases inner with
          | nil =>
              simp only [if_true, Option.some.injEq, Prod.mk.injEq, List.nil_append,
                List.cons.injEq, List.not_mem_nil, false_implies, implies_true, true_and]
              constructor
              · rintro ⟨rfl, rfl⟩
                exact ⟨⟨rfl, rfl⟩, closesHere⟩
              · rintro ⟨⟨rfl, rfl⟩, -⟩
                exact ⟨rfl, rfl⟩
          | cons first others =>
              simp only [if_true, Option.some.injEq, Prod.mk.injEq, List.nil_eq,
                reduceCtorEq, false_and, List.cons_append, List.cons.injEq, false_iff]
              rintro ⟨⟨rfl, -⟩, unclosed, -⟩
              rw [unclosed line List.mem_cons_self] at closesHere
              exact absurd closesHere Bool.false_ne_true
      | false =>
          simp only [Bool.false_eq_true, if_false, Option.map_eq_some_iff, Prod.exists,
            Prod.mk.injEq]
          constructor
          · rintro ⟨innerRest, _, _, found, rfl, rfl, rfl⟩
            obtain ⟨rfl, unclosed, closed⟩ := inductionHypothesis.mp found
            refine ⟨rfl, ?_, closed⟩
            intro candidate present
            rcases List.mem_cons.mp present with rfl | present
            · exact closesHere
            · exact unclosed candidate present
          · rintro ⟨lines_eq, unclosed, closed⟩
            cases inner with
            | nil =>
                obtain ⟨rfl, -⟩ := List.cons.inj lines_eq
                rw [closesHere] at closed
                exact absurd closed Bool.false_ne_true
            | cons first others =>
                obtain ⟨rfl, rest_eq⟩ := List.cons.inj lines_eq
                refine ⟨others, closing, after, ?_, rfl, rfl, rfl⟩
                apply inductionHypothesis.mpr
                exact ⟨rest_eq, fun candidate present =>
                  unclosed candidate (List.mem_cons_of_mem _ present), closed⟩

/-- A split holds all the lines that were cut. -/
theorem lines_around
    {kind : Kind}
    {start : Nat}
    {lines : List Line}
    {split : Split}
    (cut : around kind start lines = .ok split) :
    split.lines = lines := by
  unfold around at cut
  split at cut
  · simp at cut
  · next opener following dropped =>
      split at cut
      · simp at cut
      · next inner closing after found =>
          simp only [Except.ok.injEq] at cut
          subst cut
          have whole := List.take_append_drop start lines
          rw [dropped, (atClosing_eq_some_iff.mp found).1] at whole
          simpa [Split.lines, block] using whole

end Split
end FortranDocs
