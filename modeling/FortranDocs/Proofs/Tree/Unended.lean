import FortranDocs.Proofs.Tree.Concatenation

/-!
# Why a source cannot be read

A reading fails at a block that has no closing line in the run of lines in which it stands:
the whole source or the body of a block around it.  `Node.read_eq_error_iff` states that the
error names the first such block and that there is no other reason to fail.
`Tree.unended_of_parse_eq_error` says so of a source, with the run told by its place.
-/

namespace FortranDocs

namespace Split

/-- A cut of the body of a block as a cut of all lines around the block. -/
def surround (split inner : Split) : Split where
  before :=
    split.before ++ split.opener :: split.interior.continuation ++ split.interior.doc ++
      inner.before
  opener := inner.opener
  inner := inner.inner
  closing := inner.closing
  after := inner.after ++ split.closing :: split.after

theorem lines_surround
    {split inner : Split}
    (body : inner.lines = split.interior.body) :
    (split.surround inner).lines = split.lines := by
  rw [lines, block, lines, block, ← split.interior_append, ← body]
  simp [surround, lines, block]

theorem bodyStart_surround (split inner : Split) :
    (split.surround inner).bodyStart = split.bodyStart + inner.bodyStart := by
  simp only [surround, bodyStart, interior, List.length_append, List.length_cons]
  omega

end Split

namespace Node

/-! ## Readable lines -/

/-- Lines from which a reader makes nodes, wherever they stand. -/
def Readable (lines : List Line) : Prop :=
  ∃ nodes, read lines 0 = .ok nodes

theorem readable_iff {lines : List Line} (offset : Nat) :
    Readable lines ↔ ∃ nodes, read lines offset = .ok nodes := by
  have shifted := read_add lines 0 offset
  rw [Nat.zero_add] at shifted
  cases unshifted : read lines 0 with
  | error error => simp [Readable, shifted, unshifted, Except.map, Except.mapError]
  | ok nodes => simp [Readable, shifted, unshifted, Except.map, Except.mapError]

theorem readable_of_unopened
    {lines : List Line}
    (unopened : ∀ line ∈ lines, Kind.openedBy line = none) :
    Readable lines :=
  ⟨_, read_of_unopened unopened 0⟩

theorem Readable.append
    {front back : List Line}
    (frontReadable : Readable front)
    (backReadable : Readable back) :
    Readable (front ++ back) := by
  obtain ⟨nodes, frontRead⟩ := frontReadable
  obtain ⟨others, backRead⟩ := (readable_iff (0 + front.length)).mp backReadable
  refine ⟨beside nodes others, ?_⟩
  rw [read_append frontRead, backRead, Except.map]

/-- A block with a body that can be read can be read. -/
theorem Readable.block
    {split : Split}
    {kind : Kind}
    (first : split.IsFirstBlock kind)
    (body : Readable split.interior.body) :
    Readable (split.before ++ split.block) := by
  let alone : Split := { split with after := [] }
  have aloneFirst : alone.IsFirstBlock kind :=
    ⟨first.unopened, first.opened, first.ends.unclosed, first.ends.closed⟩
  have lines_eq : split.before ++ split.block = alone.lines := by
    simp [alone, Split.lines, Split.block]
  obtain ⟨inner, bodyRead⟩ := (readable_iff (0 + alone.bodyStart)).mp body
  have afterRead : read alone.after (0 + alone.afterStart) = .ok [] := rfl
  rw [lines_eq, Readable, read_lines aloneFirst]
  exact ⟨_, assemble_eq_ok_iff.mpr ⟨inner, [], bodyRead, afterRead, rfl⟩⟩

/-! ## Runs of lines -/

/-- A reader of some lines comes to a run of them, behind so many lines: to all lines, or to a
run in the body of a block if the lines in front of the block can be read. -/
inductive Reaches : (lines : List Line) -> (start : Nat) -> (run : List Line) -> Prop
  | whole (lines : List Line) : Reaches lines 0 lines
  | inside
      {split : Split}
      {kind : Kind}
      {start : Nat}
      {run : List Line}
      (readable : Readable split.before)
      (opened : Kind.openedBy split.opener = some kind)
      (ends : split.EndsFirst kind)
      (reached : Reaches split.interior.body start run) :
      Reaches split.lines (split.bodyStart + start) run

/-- The run to which a reader comes is all lines, or the body of a block that ends at its first
closing line. -/
theorem Reaches.whole_or_body
    {lines run : List Line}
    {start : Nat}
    (reached : Reaches lines start run) :
    start = 0 ∧ run = lines ∨
      ∃ (outer : Split) (kind : Kind),
        outer.lines = lines ∧ Kind.openedBy outer.opener = some kind ∧ outer.EndsFirst kind ∧
          outer.bodyStart = start ∧ outer.interior.body = run := by
  induction reached with
  | whole lines => exact .inl ⟨rfl, rfl⟩
  | @inside split kind start run readable opened ends _ inductionHypothesis =>
      right
      rcases inductionHypothesis with ⟨rfl, rfl⟩ | ⟨outer, outerKind, body_eq, outerOpened,
        outerEnds, rfl, rfl⟩
      · exact ⟨split, kind, rfl, opened, ends, rfl, rfl⟩
      · exact ⟨split.surround outer, outerKind, Split.lines_surround body_eq, outerOpened,
          ⟨outerEnds.unclosed, outerEnds.closed⟩, Split.bodyStart_surround split outer, rfl⟩

/-- The run stands behind so many of the lines. -/
theorem Reaches.exists_around
    {lines run : List Line}
    {start : Nat}
    (reached : Reaches lines start run) :
    ∃ front back, lines = front ++ run ++ back ∧ front.length = start := by
  rcases reached.whole_or_body with ⟨rfl, rfl⟩ | ⟨outer, kind, rfl, -, -, rfl, rfl⟩
  · exact ⟨[], [], by simp, rfl⟩
  · refine ⟨outer.before ++ outer.opener :: outer.interior.continuation ++ outer.interior.doc,
      outer.closing :: outer.after, ?_, ?_⟩
    · rw [Split.lines, Split.block, ← outer.interior_append]
      simp
    · simp only [Split.bodyStart, List.length_append, List.length_cons]
      omega

/-! ## The error -/

/-- A reader of some lines comes to a block without an end, at the line behind so many others:
no later line of the run in which it stands closes its kind, and the lines of this run in front
of it can be read. -/
def FailsAt (lines : List Line) (kind : Kind) (index : Nat) : Prop :=
  ∃ start before opener following,
    Reaches lines start (before ++ opener :: following) ∧
      index = start + before.length ∧
      Readable before ∧
      Kind.openedBy opener = some kind ∧
      ∀ later ∈ following, kind.closes later = false

namespace FailsAt

variable {lines : List Line} {kind : Kind} {index : Nat}

/-- Further lines in front that can be read move the block down. -/
theorem append_left
    {front : List Line}
    (readable : Readable front)
    (fails : FailsAt lines kind index) :
    FailsAt (front ++ lines) kind (front.length + index) := by
  obtain ⟨start, before, opener, following, reached, rfl, beforeReadable, opened, unclosed⟩ :=
    fails
  cases reached with
  | whole =>
      refine ⟨0, front ++ before, opener, following, ?_, ?_, readable.append beforeReadable,
        opened, unclosed⟩
      · rw [List.append_assoc]
        exact .whole _
      · simp
  | @inside split outerKind start _ splitReadable outerOpened ends reached =>
      refine ⟨(split.prepend front).bodyStart + start, before, opener, following, ?_, ?_,
        beforeReadable, opened, unclosed⟩
      · rw [← Split.lines_prepend]
        exact .inside (readable.append splitReadable) outerOpened
          ⟨ends.unclosed, ends.closed⟩ reached
      · rw [Split.bodyStart_prepend]
        omega

/-- A block without an end in a body has none in the lines around. -/
theorem surround
    {split : Split}
    {outer : Kind}
    (first : split.IsFirstBlock outer)
    (fails : FailsAt split.interior.body kind index) :
    FailsAt split.lines kind (split.bodyStart + index) := by
  obtain ⟨start, before, opener, following, reached, rfl, readable, opened, unclosed⟩ := fails
  exact ⟨split.bodyStart + start, before, opener, following,
    .inside (readable_of_unopened first.unopened) first.opened first.ends reached,
    (Nat.add_assoc _ _ _).symm, readable, opened, unclosed⟩

end FailsAt

/-- What a reader cannot read has a block without an end.  The induction follows the reader:
such a block stands in the body of the first block or behind the first block. -/
theorem exists_failsAt_of_read
    {lines : List Line}
    {offset : Nat}
    {error : ParseError}
    (failed : read lines offset = .error error) :
    ∃ kind index, FailsAt lines kind index ∧ error = .endNotFound kind (offset + index + 1) := by
  induction lines using cutInduction generalizing offset error with
  | unopened lines unopened =>
      rw [read_of_unopened unopened] at failed
      cases failed
  | unended before opener following kind unopened opened unclosed =>
      rw [read_of_unended unopened opened unclosed] at failed
      refine ⟨kind, before.length, ?_, (Except.error.inj failed).symm⟩
      exact ⟨0, before, opener, following, .whole _, (Nat.zero_add _).symm,
        readable_of_unopened unopened, opened, unclosed⟩
  | block split outer first bodyHypothesis afterHypothesis =>
      rw [read_lines first] at failed
      cases bodyRead : read split.interior.body (offset + split.bodyStart) with
      | error bodyError =>
          rw [bodyRead, assemble, Except.error.injEq] at failed
          obtain ⟨kind, index, fails, error_eq⟩ := bodyHypothesis bodyRead
          refine ⟨kind, split.bodyStart + index, fails.surround first, ?_⟩
          rw [← failed, error_eq, Nat.add_assoc offset]
      | ok body =>
          cases afterRead : read split.after (offset + split.afterStart) with
          | ok rest =>
              rw [bodyRead, afterRead, assemble] at failed
              cases failed
          | error afterError =>
              rw [bodyRead, afterRead, assemble, Except.error.injEq] at failed
              obtain ⟨kind, index, fails, error_eq⟩ := afterHypothesis afterRead
              have blockReadable := Readable.block first ((readable_iff _).mpr ⟨body, bodyRead⟩)
              refine ⟨kind, split.afterStart + index, ?_, ?_⟩
              · have behind := fails.append_left blockReadable
                rwa [List.length_append] at behind
              · rw [← failed, error_eq, Nat.add_assoc offset]

/-- A block without an end is the error, wherever the lines stand. -/
theorem read_of_failsAt
    {lines : List Line}
    {kind : Kind}
    {index : Nat}
    (fails : FailsAt lines kind index)
    (offset : Nat) :
    read lines offset = .error (.endNotFound kind (offset + index + 1)) := by
  obtain ⟨start, before, opener, following, reached, rfl, readable, opened, unclosed⟩ := fails
  generalize run_eq : before ++ opener :: following = run at reached
  induction reached generalizing offset with
  | whole lines =>
      obtain ⟨nodes, beforeRead⟩ := (readable_iff offset).mp readable
      have failed : read ([] ++ opener :: following) (offset + before.length) = _ :=
        read_of_unended (by simp) opened unclosed _
      rw [List.nil_append] at failed
      rw [← run_eq, read_append beforeRead, failed, Except.map]
      simp
  | @inside split outer start run splitReadable outerOpened ends _ inductionHypothesis =>
      obtain ⟨nodes, beforeRead⟩ := (readable_iff offset).mp splitReadable
      let alone : Split := { split with before := [] }
      have aloneFirst : alone.IsFirstBlock outer :=
        ⟨by simp [alone], outerOpened, ends.unclosed, ends.closed⟩
      have split_eq : alone.prepend split.before = split := by
        simp [alone, Split.prepend]
      have lines_eq : split.lines = split.before ++ alone.lines := by
        rw [← Split.lines_prepend, split_eq]
      have start_eq : split.bodyStart = split.before.length + alone.bodyStart := by
        rw [← Split.bodyStart_prepend, split_eq]
      have bodyRead : read alone.interior.body
          (offset + split.before.length + alone.bodyStart) = _ :=
        inductionHypothesis _ run_eq
      rw [lines_eq, start_eq, read_append beforeRead, read_lines aloneFirst, bodyRead, assemble,
        Except.map]
      simp only [Nat.add_assoc]

/-- A reader fails exactly at a block without an end to which it comes, and for no other
reason. -/
theorem read_eq_error_iff
    {lines : List Line}
    {offset : Nat}
    {error : ParseError} :
    read lines offset = .error error ↔
      ∃ kind index, FailsAt lines kind index ∧ error = .endNotFound kind (offset + index + 1) := by
  constructor
  · exact exists_failsAt_of_read
  · rintro ⟨kind, index, fails, rfl⟩
    exact read_of_failsAt fails offset

end Node

namespace Tree

/-- A source cannot be read exactly if a reader comes to a block without an end, and the error
names the opening line of this block. -/
theorem parse_eq_error_iff {source : Text} {error : ParseError} :
    parse source = .error error ↔
      ∃ kind index,
        Node.FailsAt (Text.splitLines source) kind index ∧
          error = .endNotFound kind (index + 1) := by
  have failed_iff : Node.read (Text.splitLines source) 0 = .error error ↔ _ :=
    Node.read_eq_error_iff
  simp only [Nat.zero_add] at failed_iff
  rw [← failed_iff, parse_eq_read]
  cases Node.read (Text.splitLines source) 0 with
  | error failure => simp [Except.map]
  | ok nodes => simp [Except.map]

/-- The error of a source names a line of it that opens a block of the kind.  This line stands
in a run of lines to which a reader comes, the whole source or the body of a block around the
line that ends at its first closing line.  No later line of the run closes the kind, and the
lines of the run in front of the line can be read. -/
theorem unended_of_parse_eq_error
    {source : Text}
    {kind : Kind}
    {line : Nat}
    (failed : parse source = .error (.endNotFound kind line)) :
    1 ≤ line ∧ line ≤ (Text.splitLines source).length ∧
      ∃ start before opener following,
        (Text.splitLines source)[line - 1]? = some opener ∧
        Kind.openedBy opener = some kind ∧
        line = start + before.length + 1 ∧
        (∀ later ∈ following, kind.closes later = false) ∧
        Node.Readable before ∧
        Node.Reaches (Text.splitLines source) start (before ++ opener :: following) ∧
        (start = 0 ∧ before ++ opener :: following = Text.splitLines source ∨
          ∃ (outer : Split) (outerKind : Kind),
            outer.lines = Text.splitLines source ∧
            Kind.openedBy outer.opener = some outerKind ∧
            outer.EndsFirst outerKind ∧
            outer.before.length + 1 < line ∧ line < outer.afterStart ∧
            outer.bodyStart = start ∧
            outer.interior.body = before ++ opener :: following) := by
  obtain ⟨_, index, fails, same⟩ := parse_eq_error_iff.mp failed
  obtain ⟨rfl, rfl⟩ := ParseError.endNotFound.inj same
  obtain ⟨start, before, opener, following, reached, rfl, readable, opened, unclosed⟩ := fails
  obtain ⟨front, back, lines_eq, rfl⟩ := reached.exists_around
  refine ⟨Nat.le_add_left _ _, ?_, front.length, before, opener, following, ?_, opened, rfl,
    unclosed, readable, reached, ?_⟩
  · rw [lines_eq]
    simp only [List.length_append, List.length_cons]
    omega
  · rw [lines_eq]
    simp
  · rcases reached.whole_or_body with whole | ⟨outer, outerKind, outer_eq, outerOpened, ends,
      start_eq, body_eq⟩
    · exact .inl whole
    · have inner_length := outer.length_inner
      have body_length := congrArg List.length body_eq
      simp only [List.length_append, List.length_cons] at body_length
      refine .inr ⟨outer, outerKind, outer_eq, outerOpened, ends, ?_, ?_, start_eq, body_eq⟩
      · simp only [← start_eq, Split.bodyStart]
        omega
      · simp only [← start_eq, Split.bodyStart, Split.afterStart, Split.block,
          List.length_append, List.length_cons, List.length_nil]
        omega

/-- A module with a function that a subroutine's end seems to end, behind another procedure. -/
def unendedSource : Text :=
  ("! Notes\nmodule m\n! Docs.\ncontains\nsubroutine s\nend subroutine\n" ++
    "function f(a, &\n  b)\nend subroutine\nend module m\n").toList

/-- The function is the error, in the body of the module: as lines of the whole source those in
front of it could not be read. -/
theorem unended_of_parse_unendedSource :
    parse unendedSource = .error (.endNotFound .function 7) ∧
      ∃ (outer : Split) (outerKind : Kind),
        outer.lines = Text.splitLines unendedSource ∧
        Kind.openedBy outer.opener = some outerKind ∧
        outer.EndsFirst outerKind ∧
        outer.before.length + 1 < 7 ∧ 7 < outer.afterStart := by
  have failed : parse unendedSource = .error (.endNotFound .function 7) := by
    decide +kernel
  obtain ⟨-, -, start, before, opener, following, -, -, line_eq, -, readable, -, whole | inside⟩ :=
    unended_of_parse_eq_error failed
  · obtain ⟨rfl, run_eq⟩ := whole
    have six : before.length = 6 := by
      omega
    have before_eq : before = (Text.splitLines unendedSource).take 6 := by
      rw [← run_eq, ← six, List.take_left]
    have unended : Node.read ((Text.splitLines unendedSource).take 6) 0 =
        .error (.endNotFound .module 2) := by
      decide +kernel
    obtain ⟨nodes, beforeRead⟩ := readable
    rw [before_eq, unended] at beforeRead
    cases beforeRead
  · obtain ⟨outer, outerKind, lines_eq, opened, ends, above, below, -, -⟩ := inside
    exact ⟨failed, outer, outerKind, lines_eq, opened, ends, above, below⟩

end Tree
end FortranDocs
