import FortranDocs.Proofs.Split
import FortranDocs.Proofs.Tree.Canonical
import Mathlib.Data.Finset.Card

/-!
# Reading and canonical trees

`Node.parseAll_eq_ok_iff` describes one step of a successful reading by the lines in
front of the first block, its frame, its body and the lines behind it.
`Node.parseSome_eq_ok_iff` follows by induction on the number of lines: reading succeeds
with exactly the canonical nodes that have the given lines.  The nesting limit is out of
reach, since a body closes fewer kinds than the lines around it.
-/

namespace FortranDocs

namespace Kind

/-- The kinds that some of the lines close. -/
def closedIn (lines : List Line) : Finset Kind :=
  all.toFinset.filter fun kind => ∃ line ∈ lines, kind.closes line = true

theorem mem_closedIn {kind : Kind} {lines : List Line} :
    kind ∈ closedIn lines ↔ ∃ line ∈ lines, kind.closes line = true := by
  have listed : kind ∈ all.toFinset := by cases kind <;> decide
  simp [closedIn, listed]

theorem closedIn_subset {inner lines : List Line} (included : inner ⊆ lines) :
    closedIn inner ⊆ closedIn lines := by
  intro kind
  simp only [mem_closedIn]
  rintro ⟨line, present, closes⟩
  exact ⟨line, included present, closes⟩

theorem card_closedIn_le (lines : List Line) : (closedIn lines).card ≤ all.length :=
  (Finset.card_filter_le _ _).trans (List.toFinset_card_le all)

end Kind

namespace Frame

/-- The cut around a frame and its body, with the lines in front and behind. -/
def split (frame : Frame) (before body after : List Line) : Split where
  before
  opener := frame.opener
  inner := frame.continuation ++ frame.doc ++ body
  closing := frame.closing
  after

theorem lines_split (frame : Frame) (before body after : List Line) :
    (frame.split before body after).lines =
      before ++ (frame.headerLines ++ frame.doc ++ body ++ [frame.closing]) ++ after := by
  simp [split, Split.lines, Split.block, headerLines]

theorem afterStart_split (frame : Frame) (before body after : List Line) :
    (frame.split before body after).afterStart =
      before.length +
        (frame.headerLines ++ frame.doc ++ body ++ [frame.closing]).length := by
  simp only [Split.afterStart, Split.block, split, headerLines, List.length_append,
    List.length_cons]
  omega

namespace WellCut

variable {frame : Frame} {body : List Line}

theorem interior_split
    (wellCut : frame.WellCut body)
    (before after : List Line) :
    (frame.split before body after).interior =
      ⟨frame.continuation, frame.doc, body⟩ :=
  Interior.ofLines_eq_iff.mpr ⟨rfl, wellCut.parts⟩

/-- Documentation lines close nothing, so no inner line of the block closes its kind. -/
theorem endsFirst_split
    (wellCut : frame.WellCut body)
    (before after : List Line) :
    (frame.split before body after).EndsFirst frame.kind := by
  refine ⟨?_, wellCut.closed⟩
  intro line present
  simp only [split, List.mem_append] at present
  rcases present with (continues | documents) | inBody
  · exact wellCut.unclosed line (List.mem_append_left _ continues)
  · have codeless := Line.codeless_of_isDocumentation (wellCut.parts.documents line documents)
    exact codeless.closes_eq_false frame.kind
  · exact wellCut.unclosed line (List.mem_append_right _ inBody)

theorem bodyStart_split
    (wellCut : frame.WellCut body)
    (before after : List Line) :
    (frame.split before body after).bodyStart =
      before.length + frame.headerLines.length + frame.doc.length := by
  rw [Split.bodyStart, wellCut.interior_split before after]
  simp only [split, headerLines, List.length_cons]
  omega

/-- A body closes fewer kinds than the lines around it. -/
theorem card_closedIn_lt
    (wellCut : frame.WellCut body)
    (before after : List Line) :
    (Kind.closedIn body).card <
      (Kind.closedIn (frame.split before body after).lines).card := by
  apply Finset.card_lt_card
  rw [Finset.ssubset_iff_of_subset]
  · refine ⟨frame.kind, Kind.mem_closedIn.mpr ⟨frame.closing, ?_, wellCut.closed⟩, ?_⟩
    · simp [lines_split]
    · rw [Kind.mem_closedIn]
      rintro ⟨line, present, closes⟩
      rw [wellCut.unclosed line (List.mem_append_right _ present)] at closes
      exact absurd closes Bool.false_ne_true
  · apply Kind.closedIn_subset
    intro line present
    simp [lines_split, present]

theorem frame_split
    (wellCut : frame.WellCut body)
    (before after : List Line) :
    (frame.split before body after).frame frame.kind frame.line = frame := by
  simp only [Split.frame, wellCut.interior_split before after, ← wellCut.indent]
  rfl

end WellCut

end Frame

namespace Split

variable {split : Split} {kind : Kind}

/-- A block that ends at its first closing line is cut into parts as a reader would. -/
theorem wellCut_frame
    (opened : Kind.openedBy split.opener = some kind)
    (ends : split.EndsFirst kind)
    (line : Nat) :
    (split.frame kind line).WellCut split.interior.body := by
  obtain ⟨inner_eq, maximal⟩ := Interior.ofLines_eq_iff.mp (rfl : _ = split.interior)
  refine ⟨opened, maximal, ?_, ends.closed, rfl⟩
  intro candidate present
  apply ends.unclosed candidate
  rw [inner_eq]
  simp only [frame, List.mem_append] at present ⊢
  rcases present with continues | inBody
  · exact .inl (.inl continues)
  · exact .inr inBody

theorem split_frame (split : Split) (kind : Kind) (line : Nat) :
    (split.frame kind line).split split.before split.interior.body split.after = split := by
  simp only [Frame.split, frame, interior_append]

end Split

namespace Node

/-! ## The first block -/

theorem firstOpener_eq_none_iff {lines : List Line} :
    firstOpener lines = none ↔ ∀ line ∈ lines, Kind.openedBy line = none := by
  induction lines with
  | nil => simp [firstOpener]
  | cons line rest inductionHypothesis =>
      simp only [firstOpener, List.forall_mem_cons]
      cases opened : Kind.openedBy line with
      | some kind => simp
      | none => simp [inductionHypothesis]

theorem firstOpener_eq_some_iff
    {lines : List Line}
    {start : Nat}
    {kind : Kind} :
    firstOpener lines = some (start, kind) ↔
      ∃ before opener rest, lines = before ++ opener :: rest ∧ before.length = start ∧
        (∀ line ∈ before, Kind.openedBy line = none) ∧
          Kind.openedBy opener = some kind := by
  induction lines generalizing start with
  | nil => simp [firstOpener]
  | cons line rest inductionHypothesis =>
      simp only [firstOpener]
      constructor
      · cases opened : Kind.openedBy line with
        | some found =>
            intro here
            obtain ⟨rfl, rfl⟩ := Prod.mk.inj (Option.some.inj here)
            exact ⟨[], line, rest, rfl, rfl, by simp, opened⟩
        | none =>
            intro inRest
            obtain ⟨⟨position, found⟩, foundInRest, shifted⟩ :=
              Option.map_eq_some_iff.mp inRest
            obtain ⟨rfl, rfl⟩ := Prod.mk.inj shifted
            obtain ⟨before, opener, after, rfl, rfl, unopened, openedLater⟩ :=
              inductionHypothesis.mp foundInRest
            exact ⟨line :: before, opener, after, rfl, rfl,
              List.forall_mem_cons.mpr ⟨opened, unopened⟩, openedLater⟩
      · rintro ⟨before, opener, after, lines_eq, rfl, unopened, opened⟩
        cases before with
        | nil =>
            obtain ⟨rfl, rfl⟩ := List.cons.inj lines_eq
            simp [opened]
        | cons first others =>
            obtain ⟨rfl, rest_eq⟩ := List.cons.inj lines_eq
            obtain ⟨closedHere, unopenedOthers⟩ := List.forall_mem_cons.mp unopened
            have foundInRest : firstOpener rest = some (others.length, kind) :=
              inductionHypothesis.mpr
                ⟨others, opener, after, rest_eq, rfl, unopenedOthers, opened⟩
            simp [closedHere, foundInRest]

/-- The first block of some lines, read off the lines. -/
theorem firstBlock_iff
    {lines : List Line}
    {start : Nat}
    {kind : Kind}
    {split : Split} :
    firstOpener lines = some (start, kind) ∧ Split.around kind start lines = .ok split ↔
      split.lines = lines ∧ split.before.length = start ∧
        (∀ line ∈ split.before, Kind.openedBy line = none) ∧
          Kind.openedBy split.opener = some kind ∧ split.EndsFirst kind := by
  rw [firstOpener_eq_some_iff, Split.around_eq_ok_iff]
  constructor
  · rintro ⟨⟨before, opener, rest, lines_eq, rfl, unopened, opened⟩,
      split_eq, sameStart, ends⟩
    have cut : split.before ++ (split.opener :: (split.inner ++ [split.closing]) ++
        split.after) = before ++ opener :: rest := by
      rw [← lines_eq, ← split_eq]
      simp [Split.lines, Split.block]
    obtain ⟨before_eq, rest_eq⟩ := List.append_inj cut sameStart
    obtain ⟨rfl, -⟩ := List.cons.inj rest_eq
    exact ⟨split_eq, sameStart, before_eq ▸ unopened, opened, ends⟩
  · rintro ⟨rfl, rfl, unopened, opened, ends⟩
    refine ⟨⟨split.before, split.opener, split.inner ++ [split.closing] ++ split.after,
      ?_, rfl, unopened, opened⟩, rfl, rfl, ends⟩
    simp [Split.lines, Split.block]

/-! ## One step of reading -/

/-- Read lines into nodes, of which there are none without lines. -/
def parseSome (lines : List Line) (offset depth : Nat) : Except ParseError (List Node) :=
  if lines.isEmpty then .ok [] else parseAll lines offset depth

theorem parseAll_of_unopened
    {lines : List Line}
    {depth : Nat}
    (shallow : depth ≤ maxDepth)
    (unopened : ∀ line ∈ lines, Kind.openedBy line = none)
    (offset : Nat) :
    parseAll lines offset depth = .ok [.text lines] := by
  rw [parseAll, if_neg (Nat.not_lt.mpr shallow)]
  simp only [firstOpener_eq_none_iff.mpr unopened]

/-- A first block without a closing line ends the reading. -/
theorem parseAll_of_around_error
    {lines : List Line}
    {start depth : Nat}
    {kind : Kind}
    {error : ParseError}
    (shallow : depth ≤ maxDepth)
    (opener : firstOpener lines = some (start, kind))
    (cut : Split.around kind start lines = .error error)
    (offset : Nat) :
    parseAll lines offset depth = .error (error.shift offset) := by
  rw [parseAll, if_neg (Nat.not_lt.mpr shallow)]
  simp only [opener]
  split
  · next failure failed =>
      obtain rfl := Except.error.inj (cut.symm.trans failed)
      rfl
  · next split found =>
      rw [cut] at found
      cases found

/-- What is read from the lines around a first block. -/
theorem parseAll_of_around
    {lines : List Line}
    {start depth : Nat}
    {kind : Kind}
    {split : Split}
    (shallow : depth ≤ maxDepth)
    (opener : firstOpener lines = some (start, kind))
    (cut : Split.around kind start lines = .ok split)
    (offset : Nat) :
    parseAll lines offset depth =
      match parseSome split.interior.body (offset + split.bodyStart) (depth + 1) with
      | .error error => .error error
      | .ok body =>
          match parseSome split.after (offset + split.afterStart) depth with
          | .error error => .error error
          | .ok rest =>
              .ok (textOf split.before ++
                .construct (split.frame kind (offset + start + 1)) body :: rest) := by
  rw [parseAll, if_neg (Nat.not_lt.mpr shallow)]
  simp only [opener]
  split
  · next error failed =>
      rw [cut] at failed
      cases failed
  · next found cutAgain =>
      obtain rfl := Except.ok.inj (cut.symm.trans cutAgain)
      rfl

/-- Nodes that come from a cut around the first block of some lines: a text without a
block, or a construct with leading text and further nodes.  Body and further nodes are
related to their lines and offsets by the given relations. -/
inductive FirstCut
    (inside behind : List Line -> Nat -> List Node -> Prop)
    (offset : Nat) :
    List Line -> List Node -> Prop
  | text
      {lines : List Line}
      (unopened : ∀ line ∈ lines, Kind.openedBy line = none) :
      FirstCut inside behind offset lines [.text lines]
  | construct
      {before bodyLines after : List Line}
      {frame : Frame}
      {body rest : List Node}
      (unopened : ∀ line ∈ before, Kind.openedBy line = none)
      (wellCut : frame.WellCut bodyLines)
      (line_eq : frame.line = offset + before.length + 1)
      (bodyRelated :
        inside bodyLines (offset + (frame.split before bodyLines after).bodyStart) body)
      (restRelated :
        behind after (offset + (frame.split before bodyLines after).afterStart) rest) :
      FirstCut inside behind offset (frame.split before bodyLines after).lines
        (textOf before ++ .construct frame body :: rest)

/-- The relations of a cut matter only for the body and the lines behind the block. -/
theorem FirstCut.mono
    {inside behind inside' behind' : List Line -> Nat -> List Node -> Prop}
    {offset : Nat}
    {lines : List Line}
    {nodes : List Node}
    (insideImplies :
      ∀ {frame : Frame} {before bodyLines after : List Line} {start : Nat}
        {body : List Node},
        (frame.split before bodyLines after).lines = lines → frame.WellCut bodyLines →
          inside bodyLines start body → inside' bodyLines start body)
    (behindImplies :
      ∀ {frame : Frame} {before bodyLines after : List Line} {start : Nat}
        {rest : List Node},
        (frame.split before bodyLines after).lines = lines →
          behind after start rest → behind' after start rest)
    (cut : FirstCut inside behind offset lines nodes) :
    FirstCut inside' behind' offset lines nodes := by
  cases cut with
  | text unopened => exact .text unopened
  | construct unopened wellCut line_eq bodyRelated restRelated =>
      exact .construct unopened wellCut line_eq
        (insideImplies rfl wellCut bodyRelated) (behindImplies rfl restRelated)

/-- One step of a successful reading. -/
theorem parseAll_eq_ok_iff
    {lines : List Line}
    {offset depth : Nat}
    {nodes : List Node}
    (shallow : depth ≤ maxDepth) :
    parseAll lines offset depth = .ok nodes ↔
      FirstCut (fun lines offset nodes => parseSome lines offset (depth + 1) = .ok nodes)
        (fun lines offset nodes => parseSome lines offset depth = .ok nodes)
        offset lines nodes := by
  constructor
  · intro parsed
    cases opener : firstOpener lines with
    | none =>
        have unopened := firstOpener_eq_none_iff.mp opener
        rw [parseAll_of_unopened shallow unopened] at parsed
        obtain rfl := Except.ok.inj parsed
        exact .text unopened
    | some found =>
        obtain ⟨start, kind⟩ := found
        cases cut : Split.around kind start lines with
        | error error =>
            rw [parseAll_of_around_error shallow opener cut] at parsed
            cases parsed
        | ok split =>
            obtain ⟨lines_eq, rfl, unopened, opened, ends⟩ := firstBlock_iff.mp ⟨opener, cut⟩
            rw [parseAll_of_around shallow opener cut] at parsed
            split at parsed
            · cases parsed
            · next body bodyParsed =>
                split at parsed
                · cases parsed
                · next rest restParsed =>
                    obtain rfl := Except.ok.inj parsed
                    have wellCut := Split.wellCut_frame opened ends
                      (offset + split.before.length + 1)
                    have split_eq := split.split_frame kind (offset + split.before.length + 1)
                    rw [← lines_eq, ← congrArg Split.lines split_eq]
                    refine .construct unopened wellCut rfl ?_ ?_
                    · rw [split_eq, bodyParsed]
                    · rw [split_eq, restParsed]
  · intro cut
    cases cut with
    | text unopened => exact parseAll_of_unopened shallow unopened offset
    | @construct before bodyLines after frame body rest unopened wellCut line_eq
        bodyParsed restParsed =>
        obtain ⟨opener, cut⟩ := firstBlock_iff.mpr
          ⟨rfl, rfl, unopened, wellCut.opened, wellCut.endsFirst_split before after⟩
        have frame_eq := wellCut.frame_split before after
        rw [line_eq] at frame_eq
        rw [parseAll_of_around shallow opener cut, wellCut.interior_split, bodyParsed]
        simp only [Frame.split] at frame_eq restParsed ⊢
        simp only [restParsed, frame_eq]

/-- One step down canonical nodes. -/
theorem canonical_iff_firstCut
    {lines : List Line}
    (nonempty : lines ≠ [])
    {offset : Nat}
    {nodes : List Node} :
    linesOfAll nodes = lines ∧ Canonical offset nodes ↔
      FirstCut (fun lines offset nodes => linesOfAll nodes = lines ∧ Canonical offset nodes)
        (fun lines offset nodes => linesOfAll nodes = lines ∧ Canonical offset nodes)
        offset lines nodes := by
  have lines_eq (before : List Line) (frame : Frame) (body rest : List Node) :
      linesOfAll (textOf before ++ .construct frame body :: rest) =
        (frame.split before (linesOfAll body) (linesOfAll rest)).lines := by
    rw [linesOfAll_append, linesOfAll_textOf, linesOfAll, lines_construct,
      Frame.lines_split, List.append_assoc before]
  constructor
  · rintro ⟨rfl, canonical⟩
    have nodesNonempty : nodes ≠ [] := by
      rintro rfl
      exact nonempty rfl
    rcases canonical.wellCut.text_or_construct nodesNonempty with
      ⟨textLines, rfl⟩ | ⟨before, frame, body, rest, rfl⟩
    · have wellCut := canonical.wellCut
      simp only [WellCutAll, WellCut] at wellCut
      simp only [linesOfAll, Node.lines, List.append_nil]
      exact .text wellCut.1.2
    · obtain ⟨unopened, wellCut, line_eq, bodyCanonical, restCanonical⟩ :=
        (canonical_textOf_append offset before frame body rest).mp canonical
      rw [lines_eq]
      refine .construct unopened wellCut line_eq ⟨rfl, ?_⟩ ⟨rfl, ?_⟩
      · rw [wellCut.bodyStart_split]
        simpa only [Nat.add_assoc] using bodyCanonical
      · rw [Frame.afterStart_split, ← lines_construct]
        simpa only [Nat.add_assoc] using restCanonical
  · intro cut
    cases cut with
    | text unopened =>
        exact ⟨by simp [linesOfAll, Node.lines], canonical_text nonempty unopened offset⟩
    | @construct before _ _ frame body rest unopened wellCut line_eq bodyRelated
        restRelated =>
        obtain ⟨rfl, bodyCanonical⟩ := bodyRelated
        obtain ⟨rfl, restCanonical⟩ := restRelated
        refine ⟨lines_eq before frame body rest, ?_⟩
        rw [wellCut.bodyStart_split] at bodyCanonical
        rw [Frame.afterStart_split, ← lines_construct] at restCanonical
        simp only [← Nat.add_assoc] at bodyCanonical restCanonical
        exact (canonical_textOf_append offset before frame body rest).mpr
          ⟨unopened, wellCut, line_eq, bodyCanonical, restCanonical⟩

/-! ## Successful readings -/

/-- Reading some lines succeeds with exactly the canonical nodes that have these lines.
The induction is on the number of lines; the nesting stays in reach because every level
leaves one kind fewer to close. -/
theorem parseSome_eq_ok_iff
    {lines : List Line}
    {offset depth : Nat}
    {nodes : List Node}
    (shallow : depth + (Kind.closedIn lines).card ≤ maxDepth) :
    parseSome lines offset depth = .ok nodes ↔
      linesOfAll nodes = lines ∧ Canonical offset nodes := by
  induction size : lines.length using Nat.strong_induction_on
    generalizing lines offset depth nodes with
  | _ size inductionHypothesis =>
      subst size
      by_cases nonempty : lines = []
      · subst nonempty
        simp only [parseSome, List.isEmpty_nil, if_true, Except.ok.injEq]
        constructor
        · rintro rfl
          exact ⟨rfl, by simp [WellCutAll], by simp [NumberedAll]⟩
        · rintro ⟨noLines, canonical⟩
          exact ((linesOfAll_eq_nil_iff canonical.wellCut).mp noLines).symm
      · rw [parseSome, if_neg (by simpa using nonempty),
          parseAll_eq_ok_iff (Nat.le_of_add_right_le shallow),
          canonical_iff_firstCut nonempty]
        have readBody
            {frame : Frame}
            {before bodyLines after : List Line}
            {start : Nat}
            {body : List Node}
            (lines_eq : (frame.split before bodyLines after).lines = lines)
            (wellCut : frame.WellCut bodyLines) :
            parseSome bodyLines start (depth + 1) = .ok body ↔
              linesOfAll body = bodyLines ∧ Canonical start body := by
          have fewer := wellCut.card_closedIn_lt before after
          rw [lines_eq] at fewer
          refine inductionHypothesis bodyLines.length ?_ ?_ rfl
          · rw [← lines_eq, Frame.lines_split]
            simp only [List.length_append, List.length_cons]
            omega
          · omega
        have readRest
            {frame : Frame}
            {before bodyLines after : List Line}
            {start : Nat}
            {rest : List Node}
            (lines_eq : (frame.split before bodyLines after).lines = lines) :
            parseSome after start depth = .ok rest ↔
              linesOfAll rest = after ∧ Canonical start rest := by
          have included : after ⊆ lines := by
            intro line present
            rw [← lines_eq, Frame.lines_split]
            exact List.mem_append_right _ present
          have notMore := Finset.card_le_card (Kind.closedIn_subset included)
          refine inductionHypothesis after.length ?_ ?_ rfl
          · rw [← lines_eq]
            exact (frame.split before bodyLines after).length_after_lt
          · omega
        constructor
        · exact FirstCut.mono
            (fun lines_eq wellCut => (readBody lines_eq wellCut).mp)
            (fun lines_eq => (readRest lines_eq).mp)
        · exact FirstCut.mono
            (fun lines_eq wellCut => (readBody lines_eq wellCut).mpr)
            (fun lines_eq => (readRest lines_eq).mpr)

end Node
end FortranDocs
