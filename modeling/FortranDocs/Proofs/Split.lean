import FortranDocs.Split

/-!
# Where a block is cut

`Split.around_eq_ok_iff` characterizes the cut around a block by its lines alone: the
block starts at the given index, and its last line is the first one behind the opening
line that closes the kind.
-/

namespace FortranDocs
namespace Split

/-- A block ends at its first closing line. -/
structure EndsFirst (split : Split) (kind : Kind) : Prop where
  /-- No inner line closes the kind. -/
  unclosed : ∀ line ∈ split.inner, kind.closes line = false
  /-- The closing line closes the kind. -/
  closed : kind.closes split.closing = true

/-- A cut around a block, read off the lines. -/
theorem around_eq_ok_iff
    {kind : Kind}
    {start : Nat}
    {lines : List Line}
    {split : Split} :
    around kind start lines = .ok split ↔
      split.lines = lines ∧ split.before.length = start ∧ split.EndsFirst kind := by
  constructor
  · intro cut
    refine ⟨lines_around cut, ?_⟩
    unfold around at cut
    split at cut
    · cases cut
    · next opener following dropped =>
        split at cut
        · cases cut
        · next inner closing after found =>
            obtain ⟨-, unclosed, closed⟩ := atClosing_eq_some_iff.mp found
            have inRange : start < lines.length := by
              have positive := congrArg List.length dropped
              simp only [List.length_drop, List.length_cons] at positive
              omega
            obtain rfl := Except.ok.inj cut
            exact ⟨by simp only [List.length_take]; omega, unclosed, closed⟩
  · rintro ⟨rfl, rfl, unclosed, closed⟩
    have dropped : split.lines.drop split.before.length =
        split.opener :: (split.inner ++ split.closing :: split.after) := by
      simp [Split.lines, block]
    have taken : split.lines.take split.before.length = split.before := by
      simp [Split.lines, List.append_assoc]
    have found : atClosing kind (split.inner ++ split.closing :: split.after) =
        some (split.inner, split.closing, split.after) :=
      atClosing_eq_some_iff.mpr ⟨rfl, unclosed, closed⟩
    simp [around, dropped, taken, found]

/-- There is no cut without a closing line. -/
theorem atClosing_eq_none_iff {kind : Kind} {lines : List Line} :
    atClosing kind lines = none ↔ ∀ line ∈ lines, kind.closes line = false := by
  induction lines with
  | nil => simp [atClosing]
  | cons line rest inductionHypothesis =>
      simp only [atClosing, List.forall_mem_cons]
      cases closesHere : kind.closes line with
      | true => simp
      | false => simp [inductionHypothesis]

/-- A block that no later line closes is reported at its opening line. -/
theorem around_of_unclosed
    {kind : Kind}
    {following : List Line}
    (unclosed : ∀ line ∈ following, kind.closes line = false)
    (before : List Line)
    (opener : Line) :
    around kind before.length (before ++ opener :: following) =
      .error (.endNotFound kind (before.length + 1)) := by
  simp only [around, List.drop_left, atClosing_eq_none_iff.mpr unclosed]

end Split
end FortranDocs
