import FortranDocs.Proofs.Tree.Concatenation
import Mathlib.Data.List.Forall2

/-!
# The outline of a source

The outline of a tree is what its constructs are without their texts: where each begins and
ends, how many lines its header has, and what is nested in it.  A documentation block takes
no part in it: it is read like a body that starts with lines that open nothing.
`Tree.outline_parse_of_code_eq` states that sources with the same code, line by line, have
the same outline or fail in the same way, whatever their comments say.
-/

namespace FortranDocs

/-- The line of the source at which a construct ends, counted from one. -/
def Construct.closingLine (construct : Construct) : Nat :=
  construct.line + construct.lines.length - 1

/-- A construct without its texts. -/
structure Outline where
  /-- The kind of block. -/
  kind : Kind
  /-- The line at which the construct begins. -/
  line : Nat
  /-- The number of header lines. -/
  headerLength : Nat
  /-- The line at which the construct ends. -/
  closingLine : Nat
  /-- The constructs directly inside the body. -/
  inner : List Outline

namespace Node

mutual

/-- The outline of a node, if it is a construct. -/
def outlines : Node -> List Outline
  | .text _ => []
  | .construct frame body =>
      [{ kind := frame.kind
         line := frame.line
         headerLength := frame.headerLines.length
         closingLine := Construct.closingLine { toFrame := frame, body }
         inner := outlinesOfAll body }]

/-- The outlines of the constructs in a sequence of nodes. -/
def outlinesOfAll : List Node -> List Outline
  | [] => []
  | node :: rest => node.outlines ++ outlinesOfAll rest

end

@[simp] theorem outlinesOfAll_textOf (lines : List Line) (rest : List Node) :
    outlinesOfAll (textOf lines ++ rest) = outlinesOfAll rest := by
  cases lines with
  | nil => rfl
  | cons line others => simp [textOf, outlinesOfAll, outlines]

theorem outlinesOfAll_beside_textOf (lines : List Line) (nodes : List Node) :
    outlinesOfAll (beside (textOf lines) nodes) = outlinesOfAll nodes := by
  cases lines with
  | nil => rw [textOf, beside_nil]
  | cons line others =>
      cases nodes with
      | nil => simp [textOf, beside, outlinesOfAll, outlines]
      | cons node rest => cases node <;> simp [textOf, beside, outlinesOfAll, outlines]

/-- The lines of a construct stand in the source where its number says. -/
theorem exists_lines_around
    {nodes : List Node}
    {offset depth innerDepth : Nat}
    {construct : Construct}
    (numbered : NumberedAll offset nodes)
    (present : (innerDepth, construct) ∈ constructsOfAll depth nodes) :
    ∃ before after,
      linesOfAll nodes = before ++ construct.lines ++ after ∧
        construct.line = offset + before.length + 1 := by
  induction present using mem_constructsOfAll_induction generalizing offset with
  | first rest present =>
      simp only [NumberedAll, Construct.toNode, Numbered] at numbered
      exact ⟨[], linesOfAll rest, rfl, numbered.1.1⟩
  | inside depth frame body rest present inBody inductionHypothesis =>
      simp only [NumberedAll, Numbered] at numbered
      obtain ⟨before, after, lines_eq, line_eq⟩ := inductionHypothesis numbered.1.2
      refine ⟨frame.headerLines ++ frame.doc ++ before,
        after ++ [frame.closing] ++ linesOfAll rest, ?_, ?_⟩
      · simp only [linesOfAll, Node.lines, lines_eq, List.append_assoc]
      · simp only [line_eq, List.length_append, Nat.add_assoc]
  | behind depth node rest present inRest inductionHypothesis =>
      simp only [NumberedAll] at numbered
      obtain ⟨before, after, lines_eq, line_eq⟩ := inductionHypothesis numbered.2
      refine ⟨node.lines ++ before, after, ?_, ?_⟩
      · simp only [linesOfAll, lines_eq, List.append_assoc]
      · simp only [line_eq, List.length_append, Nat.add_assoc]

end Node

namespace Tree

/-- The outlines of the outermost constructs of a tree, each with those inside it. -/
def outline (tree : Tree) : List Outline :=
  Node.outlinesOfAll tree.nodes

end Tree

/-! ## Lines that are cut alike -/

namespace Line

/-- Two lines that a reader cuts alike: they open, close and continue the same. -/
structure CutsAlike (left right : Line) : Prop where
  openedBy_eq : Kind.openedBy left = Kind.openedBy right
  closes_eq : ∀ kind : Kind, kind.closes left = kind.closes right
  isContinued_eq : left.isContinued = right.isContinued

/-- How a line is cut depends on its code alone. -/
theorem cutsAlike_of_code_eq {left right : Line} (sameCode : left.code = right.code) :
    left.CutsAlike right where
  openedBy_eq := by
    have opens_eq (kind : Kind) : kind.opens left = kind.opens right := by
      cases kind <;> simp only [Kind.opens, sameCode]
    simp only [Kind.openedBy, opens_eq]
  closes_eq := by
    intro kind
    simp only [Kind.closes, sameCode]
  isContinued_eq := by
    simp only [isContinued, sameCode]

variable {related : Line -> Line -> Prop} {lefts rights : List Line}

/-- What holds of lines holds of related lines if the relation keeps it. -/
theorem forall_mem_of_forall₂
    {holds : Line -> Prop}
    (all : List.Forall₂ related lefts rights)
    (keeps : ∀ left right, related left right → holds left → holds right)
    (holdsLeft : ∀ left ∈ lefts, holds left) :
    ∀ right ∈ rights, holds right := by
  induction all with
  | nil => exact holdsLeft
  | cons first others inductionHypothesis =>
      rw [List.forall_mem_cons] at holdsLeft ⊢
      exact ⟨keeps _ _ first holdsLeft.1, inductionHypothesis holdsLeft.2⟩

/-- Lines that are related to two runs of lines are two runs. -/
theorem exists_append_of_forall₂
    {front back : List Line}
    (all : List.Forall₂ related (front ++ back) rights) :
    ∃ rightFront rightBack, rights = rightFront ++ rightBack ∧
      List.Forall₂ related front rightFront ∧ List.Forall₂ related back rightBack := by
  refine ⟨rights.take front.length, rights.drop front.length,
    (List.take_append_drop _ _).symm, ?_, ?_⟩
  · simpa using List.forall₂_take front.length all
  · simpa using List.forall₂_drop front.length all

theorem unopened_of_cutsAlike
    (alike : List.Forall₂ CutsAlike lefts rights)
    (unopened : ∀ line ∈ lefts, Kind.openedBy line = none) :
    ∀ line ∈ rights, Kind.openedBy line = none :=
  forall_mem_of_forall₂ alike
    (fun _ _ sameCut opensNothing => sameCut.openedBy_eq ▸ opensNothing) unopened

theorem unclosed_of_cutsAlike
    {kind : Kind}
    (alike : List.Forall₂ CutsAlike lefts rights)
    (unclosed : ∀ line ∈ lefts, kind.closes line = false) :
    ∀ line ∈ rights, kind.closes line = false :=
  forall_mem_of_forall₂ alike
    (fun _ _ sameCut closesNothing => sameCut.closes_eq kind ▸ closesNothing) unclosed

end Line

namespace Interior

/-- Lines that are cut alike continue a header alike. -/
theorem continued_of_cutsAlike
    {opener otherOpener : Line}
    {inner otherInner : List Line}
    (opensAlike : opener.CutsAlike otherOpener)
    (alike : List.Forall₂ Line.CutsAlike inner otherInner) :
    List.Forall₂ Line.CutsAlike (continued opener inner).1 (continued otherOpener otherInner).1 ∧
      List.Forall₂ Line.CutsAlike
        (continued opener inner).2 (continued otherOpener otherInner).2 := by
  induction alike generalizing opener otherOpener with
  | nil => exact ⟨.nil, .nil⟩
  | cons first others inductionHypothesis =>
      simp only [continued, opensAlike.isContinued_eq]
      split
      · obtain ⟨header, rest⟩ := inductionHypothesis first
        exact ⟨.cons first header, rest⟩
      · exact ⟨.nil, .cons first others⟩

end Interior

namespace Split

/-- The inner lines of a block behind its header. -/
def behindHeader (split : Split) : List Line :=
  (Interior.continued split.opener split.inner).2

theorem behindHeader_eq (split : Split) :
    split.behindHeader = split.interior.doc ++ split.interior.body :=
  List.takeWhile_append_dropWhile.symm

/-- Documentation opens nothing. -/
theorem unopened_doc (split : Split) :
    ∀ line ∈ split.interior.doc, Kind.openedBy line = none := by
  intro line present
  have documents := List.all_eq_true.mp List.all_takeWhile line present
  exact (Line.codeless_of_isDocumentation documents).openedBy_eq_none

/-- Two cuts at the same places, of lines that are cut alike. -/
structure Alike (left right : Split) : Prop where
  before : List.Forall₂ Line.CutsAlike left.before right.before
  opener : left.opener.CutsAlike right.opener
  inner : List.Forall₂ Line.CutsAlike left.inner right.inner
  closing : left.closing.CutsAlike right.closing
  after : List.Forall₂ Line.CutsAlike left.after right.after

theorem exists_alike
    {split : Split}
    {lines : List Line}
    (alike : List.Forall₂ Line.CutsAlike split.lines lines) :
    ∃ other : Split, other.lines = lines ∧ split.Alike other := by
  simp only [Split.lines, block] at alike
  obtain ⟨front, after, rfl, frontAlike, afterAlike⟩ := Line.exists_append_of_forall₂ alike
  obtain ⟨before, blockLines, rfl, beforeAlike, blockAlike⟩ :=
    Line.exists_append_of_forall₂ frontAlike
  obtain ⟨openerAndInner, last, rfl, innerAlike, lastAlike⟩ :=
    Line.exists_append_of_forall₂ blockAlike
  cases innerAlike with
  | cons openerAlike innerAlike =>
      cases lastAlike with
      | cons closingAlike nothing =>
          cases nothing
          exact ⟨⟨before, _, _, _, after⟩, rfl, beforeAlike, openerAlike, innerAlike,
            closingAlike, afterAlike⟩

namespace Alike

variable {left right : Split}

theorem isFirstBlock
    {kind : Kind}
    (alike : left.Alike right)
    (first : left.IsFirstBlock kind) :
    right.IsFirstBlock kind where
  unopened := Line.unopened_of_cutsAlike alike.before first.unopened
  opened := alike.opener.openedBy_eq ▸ first.opened
  ends :=
    ⟨Line.unclosed_of_cutsAlike alike.inner first.ends.unclosed,
      alike.closing.closes_eq kind ▸ first.ends.closed⟩

theorem afterStart_eq (alike : left.Alike right) : right.afterStart = left.afterStart := by
  simp only [afterStart, block, List.length_append, List.length_cons,
    alike.before.length_eq, alike.inner.length_eq]

end Alike
end Split

namespace Node

/-! ## The outlines in some lines -/

/-- The outlines of the constructs that are read from some lines. -/
def outlinesIn (lines : List Line) (offset : Nat) : Except ParseError (List Outline) :=
  (read lines offset).map outlinesOfAll

theorem outlinesIn_of_unopened
    {lines : List Line}
    (unopened : ∀ line ∈ lines, Kind.openedBy line = none)
    (offset : Nat) :
    outlinesIn lines offset = .ok [] := by
  have nothing := outlinesOfAll_textOf lines []
  rw [List.append_nil] at nothing
  rw [outlinesIn, read_of_unopened unopened, Except.map, nothing]
  rfl

theorem outlinesIn_of_unended
    {before following : List Line}
    {opener : Line}
    {kind : Kind}
    (unopened : ∀ line ∈ before, Kind.openedBy line = none)
    (opened : Kind.openedBy opener = some kind)
    (unclosed : ∀ line ∈ following, kind.closes line = false)
    (offset : Nat) :
    outlinesIn (before ++ opener :: following) offset =
      .error (.endNotFound kind (offset + before.length + 1)) := by
  rw [outlinesIn, read_of_unended unopened opened unclosed, Except.map]

/-- The outline of a first block, in front of those behind it. -/
theorem outlinesIn_lines
    {split : Split}
    {kind : Kind}
    (first : split.IsFirstBlock kind)
    (offset : Nat) :
    outlinesIn split.lines offset = do
      let inner ← outlinesIn split.interior.body (offset + split.bodyStart)
      let others ← outlinesIn split.after (offset + split.afterStart)
      return {
        kind
        line := offset + split.before.length + 1
        headerLength := split.interior.continuation.length + 1
        closingLine := offset + split.afterStart
        inner } :: others := by
  simp only [outlinesIn, read_lines first]
  cases bodyRead : read split.interior.body (offset + split.bodyStart) with
  | error error => rfl
  | ok body =>
      cases read split.after (offset + split.afterStart) with
      | error error => rfl
      | ok rest =>
          have bodyLines := (read_eq_ok_iff.mp bodyRead).1
          have inner_length := split.length_inner
          have closing_eq : Construct.closingLine
              { toFrame := split.frame kind (offset + split.before.length + 1), body } =
                offset + split.afterStart := by
            simp only [Construct.closingLine, Construct.lines, Construct.toNode, Node.lines,
              bodyLines, Split.frame, Frame.headerLines, Split.afterStart, Split.block,
              List.length_append, List.length_cons, List.length_nil]
            omega
          simp only [assemble, Except.map, outlinesOfAll_textOf, outlinesOfAll, outlines,
            closing_eq]
          rfl

/-- Lines in front that open nothing have no outline. -/
theorem outlinesIn_append_left
    {front : List Line}
    (unopened : ∀ line ∈ front, Kind.openedBy line = none)
    (lines : List Line)
    (offset : Nat) :
    outlinesIn (front ++ lines) offset = outlinesIn lines (offset + front.length) := by
  rw [outlinesIn, outlinesIn, read_append_of_unopened unopened]
  cases read lines (offset + front.length) with
  | error error => rfl
  | ok nodes => simp only [Except.map, outlinesOfAll_beside_textOf]

/-- A documentation block is read like the first lines of a body. -/
theorem outlinesIn_body (split : Split) (offset : Nat) :
    outlinesIn split.interior.body (offset + split.bodyStart) =
      outlinesIn split.behindHeader
        (offset + split.before.length + 1 + split.interior.continuation.length) := by
  rw [split.behindHeader_eq, outlinesIn_append_left split.unopened_doc, Split.bodyStart]
  simp only [Nat.add_assoc]

/-- Lines that are cut alike have the same outlines.  The documentation blocks of the two
readings may differ, so what is related is everything behind the header: what the induction
gives for one body holds with the documentation lines in front, and so for the other body. -/
theorem outlinesIn_of_cutsAlike
    {lines others : List Line}
    (alike : List.Forall₂ Line.CutsAlike lines others)
    (offset : Nat) :
    outlinesIn lines offset = outlinesIn others offset := by
  induction lines using cutInduction generalizing others offset with
  | unopened lines unopened =>
      rw [outlinesIn_of_unopened unopened,
        outlinesIn_of_unopened (Line.unopened_of_cutsAlike alike unopened)]
  | unended before opener following kind unopened opened unclosed =>
      obtain ⟨otherBefore, block, rfl, beforeAlike, blockAlike⟩ :=
        Line.exists_append_of_forall₂ alike
      cases blockAlike with
      | cons openerAlike followingAlike =>
          rw [outlinesIn_of_unended unopened opened unclosed,
            outlinesIn_of_unended (Line.unopened_of_cutsAlike beforeAlike unopened)
              (openerAlike.openedBy_eq ▸ opened)
              (Line.unclosed_of_cutsAlike followingAlike unclosed),
            beforeAlike.length_eq]
  | block split kind first bodyHypothesis afterHypothesis =>
      obtain ⟨other, rfl, splitAlike⟩ := Split.exists_alike alike
      obtain ⟨headerAlike, innerAlike⟩ :=
        Interior.continued_of_cutsAlike splitAlike.opener splitAlike.inner
      have header_eq : split.interior.continuation.length =
          other.interior.continuation.length :=
        headerAlike.length_eq
      rw [← Split.behindHeader, ← Split.behindHeader, split.behindHeader_eq] at innerAlike
      -- The lines at the places of the first documentation block need not document.
      obtain ⟨doc, body, behind_eq, docAlike, bodyAlike⟩ :=
        Line.exists_append_of_forall₂ innerAlike
      have body_eq : outlinesIn split.interior.body (offset + split.bodyStart) =
          outlinesIn other.interior.body (offset + other.bodyStart) := by
        calc outlinesIn split.interior.body (offset + split.bodyStart)
          _ = outlinesIn body (offset + split.bodyStart) := bodyHypothesis bodyAlike _
          _ = outlinesIn (doc ++ body)
                (offset + split.before.length + 1 + split.interior.continuation.length) := by
              rw [outlinesIn_append_left (Line.unopened_of_cutsAlike docAlike split.unopened_doc),
                ← docAlike.length_eq, Split.bodyStart]
              simp only [Nat.add_assoc]
          _ = outlinesIn other.behindHeader
                (offset + other.before.length + 1 + other.interior.continuation.length) := by
              rw [behind_eq, splitAlike.before.length_eq, header_eq]
          _ = outlinesIn other.interior.body (offset + other.bodyStart) :=
              (outlinesIn_body other offset).symm
      rw [outlinesIn_lines first, outlinesIn_lines (splitAlike.isFirstBlock first), body_eq,
        afterHypothesis splitAlike.after, splitAlike.afterStart_eq,
        splitAlike.before.length_eq, header_eq]

end Node

namespace Tree

theorem outline_parse_of_cutsAlike
    {left right : Text}
    (alike : List.Forall₂ Line.CutsAlike (Text.splitLines left) (Text.splitLines right)) :
    (parse left).map outline = (parse right).map outline := by
  have outline_eq (source : Text) :
      (parse source).map outline = Node.outlinesIn (Text.splitLines source) 0 := by
    rw [parse_eq_read, Node.outlinesIn]
    cases Node.read (Text.splitLines source) 0 <;> rfl
  rw [outline_eq, outline_eq, Node.outlinesIn_of_cutsAlike alike]

/-- Sources with the same code, line by line, have the same constructs at the same lines and
with the same nesting, or cannot be read for the same reason. -/
theorem outline_parse_of_code_eq
    {left right : Text}
    (sameCode :
      (Text.splitLines left).map Line.code = (Text.splitLines right).map Line.code) :
    (parse left).map outline = (parse right).map outline := by
  apply outline_parse_of_cutsAlike
  rw [← List.forall₂_eq_eq_eq, List.forall₂_map_left_iff, List.forall₂_map_right_iff]
    at sameCode
  exact sameCode.imp fun _ _ => Line.cutsAlike_of_code_eq

/-- The nested module with other comments: it has no documentation, its body starts earlier
and with other texts, and one of the new comments would close it if comments were read. -/
def recommentedSource : Text :=
  ("\nmodule m &! and so on\n  \n  \n! end module m\n  type t &! of nothing\n  end type\n" ++
    "! type\n  contains\n  subroutine s\n  end subroutine s! done\nend module m\n! end").toList

theorem outline_recommentedSource :
    (Text.splitLines nestedSource).map Line.code =
        (Text.splitLines recommentedSource).map Line.code ∧
      (parse recommentedSource).map outline =
        .ok
          [{ kind := .module
             line := 2
             headerLength := 2
             closingLine := 12
             inner :=
               [{ kind := .type, line := 6, headerLength := 1, closingLine := 7, inner := [] },
                { kind := .subroutine
                  line := 10
                  headerLength := 1
                  closingLine := 11
                  inner := [] }] }] := by
  have sameCode : (Text.splitLines nestedSource).map Line.code =
      (Text.splitLines recommentedSource).map Line.code := by
    decide +kernel
  have outline_eq := outline_parse_of_code_eq sameCode
  rw [parse_nestedSource] at outline_eq
  exact ⟨sameCode, outline_eq.symm⟩

end Tree
end FortranDocs
