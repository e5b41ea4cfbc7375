import FortranDocs.Proofs.Tree.RoundTrip

/-!
# Reading without a depth

A reader counts how deep it is, but its limit is out of reach.  `Node.read` is what it
makes of some lines at any depth that occurs.  `Node.cutInduction` follows the reader: the
lines open nothing, or their first block has no closing line, or they are cut around their
first block; then the body and the lines behind the block are read in the same way.
-/

namespace FortranDocs

namespace Split

/-- The cut with further lines in front. -/
def prepend (front : List Line) (split : Split) : Split :=
  { split with before := front ++ split.before }

theorem lines_prepend (front : List Line) (split : Split) :
    (split.prepend front).lines = front ++ split.lines := by
  simp [prepend, lines, block]

theorem bodyStart_prepend (front : List Line) (split : Split) :
    (split.prepend front).bodyStart = front.length + split.bodyStart := by
  simp only [prepend, bodyStart, List.length_append, Nat.add_assoc]
  rfl

theorem afterStart_prepend (front : List Line) (split : Split) :
    (split.prepend front).afterStart = front.length + split.afterStart := by
  simp only [prepend, afterStart, List.length_append, Nat.add_assoc]
  rfl

/-- The cut is around the first block of the lines, which has a given kind. -/
structure IsFirstBlock (split : Split) (kind : Kind) : Prop where
  /-- No line in front opens a block. -/
  unopened : ∀ line ∈ split.before, Kind.openedBy line = none
  /-- The first line of the block opens it. -/
  opened : Kind.openedBy split.opener = some kind
  /-- The block ends at its first closing line. -/
  ends : split.EndsFirst kind

namespace IsFirstBlock

variable {split : Split} {kind : Kind}

/-- A body closes fewer kinds than the lines around it. -/
theorem card_closedIn_body_lt (first : split.IsFirstBlock kind) :
    (Kind.closedIn split.interior.body).card < (Kind.closedIn split.lines).card := by
  have fewer :=
    (wellCut_frame first.opened first.ends 0).card_closedIn_lt split.before split.after
  rwa [split_frame] at fewer

/-- Further lines in front that open nothing leave the first block the first one. -/
theorem prepend
    {front : List Line}
    (first : split.IsFirstBlock kind)
    (unopened : ∀ line ∈ front, Kind.openedBy line = none) :
    (split.prepend front).IsFirstBlock kind where
  unopened := List.forall_mem_append.mpr ⟨unopened, first.unopened⟩
  opened := first.opened
  ends := ⟨first.ends.unclosed, first.ends.closed⟩

/-- Further lines behind leave the first block as it is. -/
theorem append_right
    (first : split.IsFirstBlock kind)
    (back : List Line) :
    { split with after := split.after ++ back }.IsFirstBlock kind where
  unopened := first.unopened
  opened := first.opened
  ends := ⟨first.ends.unclosed, first.ends.closed⟩

end IsFirstBlock

theorem card_closedIn_after_le (split : Split) :
    (Kind.closedIn split.after).card ≤ (Kind.closedIn split.lines).card := by
  apply Finset.card_le_card
  apply Kind.closedIn_subset
  intro line present
  exact List.mem_append_right _ present

end Split

namespace Node

/-- Induction along the cuts of a reader: a fact about some lines may be used for the body
of their first block and for the lines behind it. -/
@[elab_as_elim]
theorem cutInduction
    {motive : List Line -> Prop}
    (unopened :
      ∀ lines, (∀ line ∈ lines, Kind.openedBy line = none) → motive lines)
    (unended :
      ∀ before opener following kind,
        (∀ line ∈ before, Kind.openedBy line = none) →
          Kind.openedBy opener = some kind →
            (∀ line ∈ following, kind.closes line = false) →
              motive (before ++ opener :: following))
    (block :
      ∀ (split : Split) kind,
        split.IsFirstBlock kind →
          motive split.interior.body → motive split.after → motive split.lines)
    (lines : List Line) :
    motive lines := by
  -- The body of a block and the lines behind it are both shorter than all lines.
  induction size : lines.length using Nat.strong_induction_on generalizing lines with
  | _ size inductionHypothesis =>
      subst size
      cases opens : firstOpener lines with
      | none => exact unopened lines (firstOpener_eq_none_iff.mp opens)
      | some found =>
          obtain ⟨start, kind⟩ := found
          obtain ⟨before, opener, following, rfl, -, beforeUnopened, opened⟩ :=
            firstOpener_eq_some_iff.mp opens
          cases cut : Split.atClosing kind following with
          | none =>
              exact unended before opener following kind beforeUnopened opened
                (Split.atClosing_eq_none_iff.mp cut)
          | some parts =>
              obtain ⟨inner, closing, after⟩ := parts
              obtain ⟨rfl, unclosed, closed⟩ := Split.atClosing_eq_some_iff.mp cut
              let split : Split := { before, opener, inner, closing, after }
              have lines_eq : before ++ opener :: (inner ++ closing :: after) = split.lines := by
                simp [split, Split.lines, Split.block]
              rw [lines_eq] at inductionHypothesis ⊢
              exact block split kind ⟨beforeUnopened, opened, unclosed, closed⟩
                (inductionHypothesis _ split.length_body_lt _ rfl)
                (inductionHypothesis _ split.length_after_lt _ rfl)

/-- The nodes around a first construct, or the first error in its body or behind it. -/
def assemble
    (before : List Line)
    (frame : Frame)
    (body rest : Except ParseError (List Node)) :
    Except ParseError (List Node) :=
  match body with
  | .error error => .error error
  | .ok body =>
      match rest with
      | .error error => .error error
      | .ok rest => .ok (textOf before ++ .construct frame body :: rest)

theorem assemble_eq_ok_iff
    {before : List Line}
    {frame : Frame}
    {body rest : Except ParseError (List Node)}
    {nodes : List Node} :
    assemble before frame body rest = .ok nodes ↔
      ∃ inner others, body = .ok inner ∧ rest = .ok others ∧
        textOf before ++ .construct frame inner :: others = nodes := by
  cases body with
  | error error => simp [assemble]
  | ok inner =>
      cases rest with
      | error error => simp [assemble]
      | ok others => simp [assemble]

/-! ## Readings at some depth -/

section Depth

variable {depth : Nat}

theorem parseSome_of_unopened
    {lines : List Line}
    (shallow : depth ≤ maxDepth)
    (unopened : ∀ line ∈ lines, Kind.openedBy line = none)
    (offset : Nat) :
    parseSome lines offset depth = .ok (textOf lines) := by
  cases lines with
  | nil => rfl
  | cons line rest => exact parseAll_of_unopened shallow unopened offset

theorem parseSome_of_unended
    {before following : List Line}
    {opener : Line}
    {kind : Kind}
    (shallow : depth ≤ maxDepth)
    (unopened : ∀ line ∈ before, Kind.openedBy line = none)
    (opened : Kind.openedBy opener = some kind)
    (unclosed : ∀ line ∈ following, kind.closes line = false)
    (offset : Nat) :
    parseSome (before ++ opener :: following) offset depth =
      .error (.endNotFound kind (offset + before.length + 1)) := by
  have first : firstOpener (before ++ opener :: following) = some (before.length, kind) :=
    firstOpener_eq_some_iff.mpr ⟨before, opener, following, rfl, rfl, unopened, opened⟩
  have failed := parseAll_of_around_error shallow first
    (Split.around_of_unclosed unclosed before opener) offset
  have number_eq : before.length + 1 + offset = offset + before.length + 1 := by
    omega
  rw [ParseError.shift, number_eq] at failed
  rw [parseSome, if_neg (by simp), failed]

theorem parseSome_lines
    {split : Split}
    {kind : Kind}
    (shallow : depth ≤ maxDepth)
    (first : split.IsFirstBlock kind)
    (offset : Nat) :
    parseSome split.lines offset depth =
      assemble split.before (split.frame kind (offset + split.before.length + 1))
        (parseSome split.interior.body (offset + split.bodyStart) (depth + 1))
        (parseSome split.after (offset + split.afterStart) depth) := by
  obtain ⟨opener, cut⟩ := firstBlock_iff.mpr
    ⟨rfl, rfl, first.unopened, first.opened, first.ends⟩
  have nonempty : split.lines ≠ [] := by
    simp [Split.lines, Split.block]
  rw [parseSome, if_neg (by simpa using nonempty), parseAll_of_around shallow opener cut]
  rfl

end Depth

/-! ## Readings at any depth -/

/-- Read lines into nodes, at whatever depth they stand. -/
def read (lines : List Line) (offset : Nat) : Except ParseError (List Node) :=
  parseSome lines offset 0

/-- The limit is out of reach as long as every further level leaves a kind fewer to close. -/
theorem parseSome_eq_read
    {lines : List Line}
    {offset depth : Nat}
    (shallow : depth + (Kind.closedIn lines).card ≤ maxDepth) :
    parseSome lines offset depth = read lines offset := by
  induction lines using cutInduction generalizing offset depth with
  | unopened lines unopened =>
      rw [read, parseSome_of_unopened (Nat.le_of_add_right_le shallow) unopened,
        parseSome_of_unopened (Nat.zero_le _) unopened]
  | unended before opener following kind unopened opened unclosed =>
      rw [read, parseSome_of_unended (Nat.le_of_add_right_le shallow) unopened opened unclosed,
        parseSome_of_unended (Nat.zero_le _) unopened opened unclosed]
  | block split kind first bodyHypothesis afterHypothesis =>
      -- What the body may be deeper it has fewer kinds to close.
      have fewer := first.card_closedIn_body_lt
      have notMore := split.card_closedIn_after_le
      rw [read, parseSome_lines (Nat.le_of_add_right_le shallow) first,
        parseSome_lines (Nat.zero_le _) first, bodyHypothesis (by omega),
        afterHypothesis (by omega), bodyHypothesis (by omega)]
      rfl

theorem shallow_of_le_one {depth : Nat} (low : depth ≤ 1) (lines : List Line) :
    depth + (Kind.closedIn lines).card ≤ maxDepth := by
  have few := Kind.card_closedIn_le lines
  have five : Kind.all.length = 5 := rfl
  simp only [maxDepth]
  omega

/-- Reading succeeds with exactly the canonical nodes that have the given lines. -/
theorem read_eq_ok_iff
    {lines : List Line}
    {offset : Nat}
    {nodes : List Node} :
    read lines offset = .ok nodes ↔ linesOfAll nodes = lines ∧ Canonical offset nodes :=
  parseSome_eq_ok_iff (shallow_of_le_one (Nat.zero_le 1) lines)

theorem read_of_unopened
    {lines : List Line}
    (unopened : ∀ line ∈ lines, Kind.openedBy line = none)
    (offset : Nat) :
    read lines offset = .ok (textOf lines) :=
  parseSome_of_unopened (Nat.zero_le _) unopened offset

/-- A block without a closing line is reported at its opening line. -/
theorem read_of_unended
    {before following : List Line}
    {opener : Line}
    {kind : Kind}
    (unopened : ∀ line ∈ before, Kind.openedBy line = none)
    (opened : Kind.openedBy opener = some kind)
    (unclosed : ∀ line ∈ following, kind.closes line = false)
    (offset : Nat) :
    read (before ++ opener :: following) offset =
      .error (.endNotFound kind (offset + before.length + 1)) :=
  parseSome_of_unended (Nat.zero_le _) unopened opened unclosed offset

/-- A first block is read together with its body and the lines behind it. -/
theorem read_lines
    {split : Split}
    {kind : Kind}
    (first : split.IsFirstBlock kind)
    (offset : Nat) :
    read split.lines offset =
      assemble split.before (split.frame kind (offset + split.before.length + 1))
        (read split.interior.body (offset + split.bodyStart))
        (read split.after (offset + split.afterStart)) := by
  rw [read, parseSome_lines (Nat.zero_le _) first,
    parseSome_eq_read (shallow_of_le_one (Nat.le_refl 1) split.interior.body)]
  rfl

end Node

namespace Tree

/-- A source is read line by line. -/
theorem parse_eq_read (source : Text) :
    parse source = (Node.read (Text.splitLines source) 0).map fun nodes => { nodes } := by
  rw [parse, Node.read, Node.parseSome, if_neg (by simp)]

end Tree
end FortranDocs
