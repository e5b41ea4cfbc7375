import FortranDocs.Proofs.Split
import FortranDocs.Slices

/-!
# Cuts by indices are exact

A cut by indices is the cut around a block, and no index, sum or difference is out of range:
`Slices.around?_eq`.  `Slices.around_cuts_exactly` states for every start, whether or not there is a
line, when lines can be cut and what the three slices then are.

The line of the start is counted from one, so that the last index of a machine is no start.  What
comes of it is told by `Slices.around?_stops_allOnes` and `Slices.around?_wraps_allOnes`.
-/

namespace FortranDocs

namespace Split

/-- The three parts of a split. -/
def slices (split : Split) : Slices where
  before := split.before
  block := split.block
  after := split.after

/-- The lines behind the opening line. -/
theorem drop_lines (split : Split) :
    split.lines.drop (split.before.length + 1) =
      split.inner ++ split.closing :: split.after := by
  simp [lines, block, ← List.drop_drop]

end Split

namespace Slices

/-- Whether three parts are lines cut around a block that starts behind so many of them and ends at
its first closing line. -/
structure CutExactly (slices : Slices) (kind : Kind) (start : Nat) (lines : List Line) : Prop where
  /-- Nothing is lost. -/
  whole : slices.before ++ slices.block ++ slices.after = lines
  /-- The block starts at the given line. -/
  starts : slices.before.length = start
  /-- The opening line is not the closing line. -/
  filled : 2 ≤ slices.block.length
  /-- The last line closes the kind. -/
  closed : ∀ line ∈ slices.block.getLast?, kind.closes line = true
  /-- No line between the first and the last one does. -/
  unclosed : ∀ line ∈ slices.block.tail.dropLast, kind.closes line = false

theorem cutExactly_slices_iff
    {split : Split}
    {kind : Kind}
    {start : Nat}
    {lines : List Line} :
    split.slices.CutExactly kind start lines ↔
      split.lines = lines ∧ split.before.length = start ∧ split.EndsFirst kind := by
  have last : split.slices.block.getLast? = some split.closing := List.getLast?_concat
  have inner : split.slices.block.tail.dropLast = split.inner := List.dropLast_concat
  constructor
  · intro cut
    refine ⟨cut.whole, cut.starts, fun line present => ?_, cut.closed _ last⟩
    exact cut.unclosed line (inner.symm ▸ present)
  · rintro ⟨whole, starts, unclosed, closed⟩
    refine ⟨whole, starts, ?_, fun line isLast => ?_, fun line present => ?_⟩
    · simp [Split.slices, Split.block]
    · rw [last] at isLast
      exact Option.mem_some_iff.mp isLast ▸ closed
    · exact unclosed line (inner ▸ present)

/-- Two lines or more are an opening line, inner lines and a closing line. -/
theorem exists_slices_eq {slices : Slices} (filled : 2 ≤ slices.block.length) :
    ∃ split : Split, split.slices = slices := by
  obtain ⟨before, block, after⟩ := slices
  cases block with
  | nil => simp at filled
  | cons opener rest =>
      have restFilled : rest ≠ [] := by
        rintro rfl
        simp at filled
      refine ⟨⟨before, opener, rest.dropLast, rest.getLast restFilled, after⟩, ?_⟩
      simp [Split.slices, Split.block, List.dropLast_concat_getLast restFilled]

/-- The parts of a cut around a block are the only ones that are cut exactly. -/
theorem map_slices_around_eq_ok_iff
    {kind : Kind}
    {start : Nat}
    {lines : List Line}
    {slices : Slices} :
    (Split.around kind start lines).map Split.slices = .ok slices ↔
      slices.CutExactly kind start lines := by
  constructor
  · intro cut
    cases whole : Split.around kind start lines with
    | error error =>
        rw [whole] at cut
        cases cut
    | ok split =>
        rw [whole] at cut
        obtain rfl := Except.ok.inj cut
        exact cutExactly_slices_iff.mpr (Split.around_eq_ok_iff.mp whole)
  · intro exactly
    obtain ⟨split, rfl⟩ := exists_slices_eq exactly.filled
    rw [Split.around_eq_ok_iff.mpr (cutExactly_slices_iff.mp exactly)]
    rfl

/-! ## Indices -/

theorem drop_zipIdx (lines : List Line) (count offset : Nat) :
    (lines.zipIdx offset).drop count = (lines.drop count).zipIdx (offset + count) := by
  apply List.ext_getElem?
  intro index
  simp [List.getElem?_drop, List.getElem?_zipIdx, Nat.add_assoc]

theorem find?_closes_zipIdx_eq_none_iff {kind : Kind} {lines : List Line} {offset : Nat} :
    (lines.zipIdx offset).find? (fun numbered => kind.closes numbered.1) = none ↔
      ∀ line ∈ lines, kind.closes line = false := by
  rw [List.find?_eq_none]
  constructor
  · intro none line present
    obtain ⟨index, found⟩ := List.mem_iff_getElem?.mp present
    have numbered : (line, offset + index) ∈ lines.zipIdx offset := by
      rw [List.mem_iff_getElem?]
      exact ⟨index, by simp [found]⟩
    simpa using none _ numbered
  · rintro unclosed ⟨line, index⟩ present
    simp [unclosed line (List.fst_mem_of_mem_zipIdx present)]

/-- No index is found exactly if no line from the first one on closes the kind. -/
theorem closingIndex?_eq_none_iff {kind : Kind} {first : Nat} {lines : List Line} :
    closingIndex? kind first lines = none ↔
      ∀ line ∈ lines.drop first, kind.closes line = false := by
  rw [closingIndex?, drop_zipIdx, Option.map_eq_none_iff, find?_closes_zipIdx_eq_none_iff]

/-- The index that is found is that of the closing line. -/
theorem closingIndex?_lines
    {split : Split}
    {kind : Kind}
    (ends : split.EndsFirst kind) :
    closingIndex? kind (split.before.length + 1) split.lines = some split.closingIndex := by
  rw [closingIndex?, drop_zipIdx, split.drop_lines, List.zipIdx_append, List.find?_append,
    find?_closes_zipIdx_eq_none_iff.mpr ends.unclosed, Option.none_or, List.zipIdx_cons,
    List.find?_cons_of_pos (by exact ends.closed), Option.map_some, Split.closingIndex]
  congr 1
  omega

theorem cutAt?_length_append (front back : List Line) :
    cutAt? front.length (front ++ back) = some (front, back) := by
  simp [cutAt?, List.splitAt_eq]

/-- A cut at the first and the last line of a block is in range. -/
theorem between?_lines (split : Split) :
    between? split.before.length split.closingIndex split.lines = some split.slices := by
  have distance : difference? split.closingIndex split.before.length =
      some (split.inner.length + 1) := by
    rw [difference?, if_pos (by unfold Split.closingIndex; omega)]
    congr 1
    unfold Split.closingIndex
    omega
  have blockLength : split.inner.length + 1 + 1 = split.block.length := by
    simp [Split.block]
  rw [between?, Split.lines, List.append_assoc, cutAt?_length_append, distance]
  simp only [Option.bind_eq_bind, Option.bind_some]
  rw [blockLength, cutAt?_length_append]
  rfl

end Slices

namespace Split

/-- Whether some line behind a given index closes a kind. -/
def ClosedBehind (kind : Kind) (start : Nat) (lines : List Line) : Prop :=
  ∃ index line, start < index ∧ lines[index]? = some line ∧ kind.closes line = true

theorem closedBehind_iff {kind : Kind} {start : Nat} {lines : List Line} :
    ClosedBehind kind start lines ↔ ∃ line ∈ lines.drop (start + 1), kind.closes line = true := by
  simp only [ClosedBehind, List.mem_iff_getElem?, List.getElem?_drop]
  constructor
  · rintro ⟨index, line, behind, found, closed⟩
    refine ⟨line, ⟨index - (start + 1), ?_⟩, closed⟩
    rw [Nat.add_sub_cancel' behind, found]
  · rintro ⟨line, ⟨distance, found⟩, closed⟩
    exact ⟨start + 1 + distance, line, by omega, found, closed⟩

/-- A cut fails exactly if no line behind the first one of the block closes the kind. -/
theorem around_eq_error_iff
    {kind : Kind}
    {start : Nat}
    {lines : List Line}
    {error : ParseError} :
    around kind start lines = .error error ↔
      error = .endNotFound kind (start + 1) ∧
        ∀ line ∈ lines.drop (start + 1), kind.closes line = false := by
  have behind : lines.drop (start + 1) = (lines.drop start).tail := List.drop_add_one_eq_tail_drop
  rw [around, behind]
  split
  · next nothing =>
      rw [nothing, Except.error.injEq, eq_comm]
      simp
  · next opener following dropped =>
      rw [dropped, List.tail_cons]
      split
      · next none =>
          rw [Except.error.injEq, eq_comm]
          exact (and_iff_left (atClosing_eq_none_iff.mp none)).symm
      · next inner closing after found =>
          obtain ⟨rfl, -, closed⟩ := atClosing_eq_some_iff.mp found
          refine iff_of_false (by simp) fun unended => ?_
          rw [unended.2 closing (by simp)] at closed
          exact Bool.false_ne_true closed

theorem exists_around_eq_ok_iff {kind : Kind} {start : Nat} {lines : List Line} :
    (∃ split, around kind start lines = .ok split) ↔ ClosedBehind kind start lines := by
  rw [closedBehind_iff]
  cases cut : around kind start lines with
  | ok split =>
      obtain ⟨rfl, rfl, ends⟩ := around_eq_ok_iff.mp cut
      refine iff_of_true ⟨split, rfl⟩ ⟨split.closing, ?_, ends.closed⟩
      rw [drop_lines]
      simp
  | error error =>
      refine iff_of_false (by simp) ?_
      rintro ⟨line, present, closed⟩
      rw [(around_eq_error_iff.mp cut).2 line present] at closed
      exact Bool.false_ne_true closed

end Split

namespace Slices

variable {width : Nat} {start : BitVec width} {kind : Kind} {lines : List Line}

/-! ## Machine words -/

/-- A word has another one behind it unless it is the last one. -/
theorem next?_of_ne
    (notLast : start ≠ .allOnes width)
    (overflow : Overflow) :
    overflow.next? start = some (start + 1) ∧ (start + 1).toNat = start.toNat + 1 := by
  refine ⟨if_neg fun both => notLast both.2, ?_⟩
  have below := BitVec.lt_def.mp (BitVec.lt_allOnes_iff.mpr notLast)
  rw [BitVec.toNat_allOnes] at below
  have next : (BitVec.ofNat width 1).toNat = 1 := by
    rw [BitVec.toNat_ofNat, Nat.mod_eq_of_lt (by omega)]
  have sum : (start + BitVec.ofNat width 1).toNat =
      start.toNat + (BitVec.ofNat width 1).toNat := BitVec.toNat_add_of_lt (by omega)
  rw [next] at sum
  exact sum

/-- Behind the last word a machine that drops the carry is at zero. -/
theorem toNat_allOnes_add_one (width : Nat) : (BitVec.allOnes width + 1).toNat = 0 := by
  have sum : BitVec.allOnes width + BitVec.ofNat width 1 = 0 := by
    rw [← BitVec.neg_one_eq_allOnes, BitVec.add_comm, ← BitVec.sub_eq_add_neg, BitVec.sub_self]
    rfl
  exact (congrArg BitVec.toNat sum).trans BitVec.toNat_zero

/-- A cut at a start with another word behind it. -/
theorem around?_of_next
    {overflow : Overflow}
    {next : BitVec width}
    (goesOn : overflow.next? start = some next)
    (kind : Kind)
    (lines : List Line) :
    around? overflow kind start lines =
      match closingIndex? kind next.toNat lines with
      | none => some (.error (.endNotFound kind next.toNat))
      | some closing => (between? start.toNat closing lines).map .ok := by
  rw [around?, goesOn]
  dsimp only [Option.bind_eq_bind, Option.bind_some]
  cases closingIndex? kind next.toNat lines with
  | none => rfl
  | some closing =>
      dsimp only
      cases between? start.toNat closing lines <;> rfl

/-- A cut by indices stays in range and gives the parts of the split, unless it starts at the last
index. -/
theorem around?_eq
    (notLast : start ≠ .allOnes width)
    (overflow : Overflow)
    (kind : Kind)
    (lines : List Line) :
    around? overflow kind start lines =
      some ((Split.around kind start.toNat lines).map Split.slices) := by
  obtain ⟨next, next_eq⟩ := next?_of_ne notLast overflow
  rw [around?_of_next next, next_eq]
  cases cut : Split.around kind start.toNat lines with
  | error error =>
      obtain ⟨rfl, unclosed⟩ := Split.around_eq_error_iff.mp cut
      rw [closingIndex?_eq_none_iff.mpr unclosed]
      rfl
  | ok split =>
      obtain ⟨rfl, starts, ends⟩ := Split.around_eq_ok_iff.mp cut
      rw [← starts, closingIndex?_lines ends]
      simp only [between?_lines]
      rfl

/-- A machine that checks its sums stops at the last index. -/
theorem around?_stops_allOnes (kind : Kind) (lines : List Line) :
    around? .stops kind (.allOnes width) lines = none := by
  simp [around?, Overflow.next?]

/-- A machine that drops the carry looks for a closing line from the first line on.  Where there
is none it names line zero, and otherwise the last index is out of range. -/
theorem around?_wraps_allOnes
    (short : lines.length < (BitVec.allOnes width).toNat)
    (kind : Kind) :
    around? .wraps kind (.allOnes width) lines =
      if lines.any kind.closes then none else some (.error (.endNotFound kind 0)) := by
  have next : Overflow.next? .wraps (.allOnes width) = some (.allOnes width + 1) :=
    if_neg fun both => nomatch both.1
  have outside (closing : Nat) : between? (BitVec.allOnes width).toNat closing lines = none := by
    rw [between?, cutAt?, if_neg (Nat.not_le.mpr short)]
    rfl
  have nothing : closingIndex? kind 0 lines = none ↔ lines.any kind.closes = false := by
    rw [closingIndex?_eq_none_iff, List.any_eq_false]
    simp
  rw [around?_of_next next, toNat_allOnes_add_one]
  cases found : closingIndex? kind 0 lines with
  | none =>
      rw [nothing.mp found]
      rfl
  | some closing =>
      have closes : lines.any kind.closes = true := by
        rw [← Bool.not_eq_false, ← nothing, found]
        exact Option.some_ne_none closing
      rw [closes]
      dsimp only
      rw [outside, Option.map_none, if_pos rfl]

/-- Whether a cut around a block that starts at an index is right: there are slices exactly if a
later line closes the kind, and they are the exact cut; the error names the kind and the line of the
start, counted from one; and nothing is out of range. -/
structure Answers
    (cut : Option (Except ParseError Slices))
    (kind : Kind)
    (start : Nat)
    (lines : List Line) : Prop where
  /-- When there are slices. -/
  succeeds : (∃ slices, cut = some (.ok slices)) ↔ Split.ClosedBehind kind start lines
  /-- Which slices there are. -/
  exactly : ∀ slices : Slices, cut = some (.ok slices) ↔ slices.CutExactly kind start lines
  /-- When there is an error, and which. -/
  fails :
    ∀ error, cut = some (.error error) ↔
      error = .endNotFound kind (start + 1) ∧ ¬ Split.ClosedBehind kind start lines
  /-- The machine does not stop. -/
  goesOn : cut.isSome = true

/-- The cut of a split is right. -/
theorem answers_around (kind : Kind) (start : Nat) (lines : List Line) :
    Answers (some ((Split.around kind start lines).map Split.slices)) kind start lines where
  succeeds := by
    rw [← Split.exists_around_eq_ok_iff]
    cases Split.around kind start lines <;> simp [Except.map]
  exactly := by
    intro slices
    rw [Option.some.injEq, map_slices_around_eq_ok_iff]
  fails := by
    intro error
    have mapped : (Split.around kind start lines).map Split.slices = .error error ↔
        Split.around kind start lines = .error error := by
      cases Split.around kind start lines <;> simp [Except.map]
    rw [Option.some.injEq, mapped, Split.around_eq_error_iff, Split.closedBehind_iff]
    simp
  goesOn := rfl

/-- Lines can be cut around a block from any start but the last index, exactly if a later line
closes the kind.  The three slices are then the only ones that are an exact cut, and otherwise the
error names the kind and the line of the start, counted from one.  No index of the cut is out of
range.  The parser makes the same cut. -/
theorem around_cuts_exactly
    (notLast : start ≠ .allOnes width)
    (overflow : Overflow)
    (kind : Kind)
    (lines : List Line) :
    Answers (around? overflow kind start lines) kind start.toNat lines ∧
      around? overflow kind start lines =
        some ((Split.around kind start.toNat lines).map Split.slices) := by
  have cut := around?_eq notLast overflow kind lines
  exact ⟨cut ▸ answers_around kind start.toNat lines, cut⟩

/-- The line at the start is not looked at, and a start beyond the end has no line behind it. -/
theorem around_cuts_exactly_at_edges :
    let lines : List Line := ["end module m", "end module m", "x = 1"].map String.toList
    (0 : BitVec 64) ≠ .allOnes 64 ∧ (7 : BitVec 64) ≠ .allOnes 64 ∧
      around? .wraps .module (0 : BitVec 64) lines =
        some (.ok ⟨[], lines.take 2, lines.drop 2⟩) ∧
      around? .stops .module (7 : BitVec 64) lines =
        some (.error (.endNotFound .module 8)) := by
  intro lines
  have first : (0 : BitVec 64) ≠ .allOnes 64 := by decide
  have beyond : (7 : BitVec 64) ≠ .allOnes 64 := by decide
  refine ⟨first, beyond, ?_, ?_⟩
  · refine ((around_cuts_exactly first _ _ _).1.exactly _).mpr ?_
    exact ⟨rfl, rfl, by decide, by decide, by decide⟩
  · refine ((around_cuts_exactly beyond _ _ _).1.fails _).mpr ⟨rfl, ?_⟩
    rw [Split.closedBehind_iff]
    simp [lines]

/-- From the last index a machine that checks its sums stops, and one that drops the carry names
line zero where no line closes the kind and stops where one does.  None of this is right. -/
theorem not_answers_at_last_index :
    let start := BitVec.allOnes 64
    let opened : List Line := ["module m".toList]
    let closed : List Line := ["end module m".toList]
    around? .stops .module start opened = none ∧
      around? .wraps .module start opened = some (.error (.endNotFound .module 0)) ∧
      around? .wraps .module start closed = none ∧
      ∀ overflow, ¬ Answers (around? overflow .module start opened) .module start.toNat opened := by
  intro start opened closed
  have stops : around? .stops .module start opened = none := around?_stops_allOnes _ _
  have wraps : around? .wraps .module start opened = some (.error (.endNotFound .module 0)) :=
    around?_wraps_allOnes (by decide) _
  refine ⟨stops, wraps, around?_wraps_allOnes (by decide) _, ?_⟩
  intro overflow answers
  cases overflow with
  | stops => simpa [stops] using answers.goesOn
  | wraps =>
      have numbered := ((answers.fails _).mp wraps).1
      exact absurd numbered (by decide)

end Slices
end FortranDocs
