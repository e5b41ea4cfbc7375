/-!
# Text and its white space

A text is a list of characters.  This module fixes the white space that every
trim and blank test of the library uses, the Unicode property `White_Space`,
and the splitting and joining of a text at one separator character.

The main statements are `joinLines_splitLines` and `splitLines_joinLines`: cutting a
text into lines and joining lines into a text undo each other.
-/

namespace FortranDocs

/-- A piece of text. -/
abbrev Text := List Char

/-- One line of a text, without the line feed that ends it. -/
abbrev Line := List Char

/-- The characters of the Unicode property `White_Space`. -/
def isSpace (character : Char) : Bool :=
  let code := character.toNat
  (0x09 ≤ code && code ≤ 0x0D) || code == 0x20 || code == 0x85 || code == 0xA0 ||
    code == 0x1680 || (0x2000 ≤ code && code ≤ 0x200A) || code == 0x2028 ||
    code == 0x2029 || code == 0x202F || code == 0x205F || code == 0x3000

namespace Text

/-- Remove leading white space. -/
def trimStart (text : Text) : Text :=
  text.dropWhile isSpace

/-- Remove trailing white space. -/
def trimEnd (text : Text) : Text :=
  (text.reverse.dropWhile isSpace).reverse

/-- Remove white space on both sides. -/
def trim (text : Text) : Text :=
  trimEnd (trimStart text)

/-- A text is blank when it holds nothing but white space. -/
def isBlank (text : Text) : Bool :=
  text.all isSpace

/-- An indentation is white space. -/
theorem all_isSpace_indent (indent : Nat) : (List.replicate indent ' ').all isSpace = true := by
  rw [List.all_eq_true]
  intro character present
  rw [List.eq_of_mem_replicate present]
  decide

/-- Cut a text at every occurrence of a separator.  There is always one piece
more than there are separators. -/
def splitOn (separator : Char) (text : Text) : List Text :=
  List.splitOn separator text

/-- Join pieces with a separator between neighbours. -/
def joinOn (separator : Char) (pieces : List Text) : Text :=
  [separator].intercalate pieces

/-- The lines of a text, each without the line feed after it.  A final line
feed leaves an empty last line, so that `joinLines` gives the text back. -/
def splitLines (text : Text) : List Line :=
  splitOn '\n' text

/-- The text whose lines are given. -/
def joinLines (lines : List Line) : Text :=
  joinOn '\n' lines

/-- A piece holds no separator. -/
theorem separator_not_mem_of_mem_splitOn
    {separator : Char}
    {text piece : Text}
    (present : piece ∈ splitOn separator text) :
    separator ∉ piece := by
  induction text generalizing piece with
  | nil =>
      rw [List.mem_singleton.mp present]
      exact List.not_mem_nil
  | cons character rest inductionHypothesis =>
      rw [splitOn, List.splitOn_cons_eq_if_modifyHead] at present
      split at present
      · rcases List.mem_cons.mp present with rfl | inRest
        · exact List.not_mem_nil
        · exact inductionHypothesis inRest
      · next noSeparator =>
          cases cut : List.splitOn separator rest with
          | nil => exact absurd cut (List.splitOn_ne_nil separator rest)
          | cons first others =>
              simp only [splitOn, cut] at inductionHypothesis
              rw [cut, List.modifyHead_cons] at present
              rcases List.mem_cons.mp present with rfl | inOthers
              · have firstWhole := inductionHypothesis List.mem_cons_self
                simp only [List.mem_cons, not_or]
                exact ⟨fun equal => noSeparator (beq_iff_eq.mpr equal.symm), firstWhole⟩
              · exact inductionHypothesis (List.mem_cons_of_mem first inOthers)

@[simp] theorem splitLines_ne_nil (text : Text) : splitLines text ≠ [] :=
  List.splitOn_ne_nil '\n' text

/-- Joining undoes cutting. -/
theorem joinLines_splitLines (text : Text) : joinLines (splitLines text) = text :=
  List.intercalate_splitOn '\n'

/-- A line holds no line feed. -/
theorem lineFeed_not_mem_of_mem_splitLines
    {text : Text}
    {line : Line}
    (present : line ∈ splitLines text) :
    '\n' ∉ line :=
  separator_not_mem_of_mem_splitOn present

/-- Cutting undoes joining when no line holds a line feed. -/
theorem splitLines_joinLines
    {lines : List Line}
    (nonempty : lines ≠ [])
    (whole : ∀ line ∈ lines, '\n' ∉ line) :
    splitLines (joinLines lines) = lines :=
  List.splitOn_intercalate '\n' whole nonempty

@[simp] theorem joinLines_singleton (line : Line) : joinLines [line] = line := by
  simp [joinLines, joinOn]

theorem joinLines_cons
    (line : Line)
    {lines : List Line}
    (nonempty : lines ≠ []) :
    joinLines (line :: lines) = line ++ '\n' :: joinLines lines := by
  simp [joinLines, joinOn, List.intercalate_cons_of_ne_nil nonempty]

/-- Two runs of lines are joined by a line feed between them. -/
theorem joinLines_append
    {front back : List Line}
    (frontNonempty : front ≠ [])
    (backNonempty : back ≠ []) :
    joinLines (front ++ back) = joinLines front ++ '\n' :: joinLines back := by
  induction front with
  | nil => exact absurd rfl frontNonempty
  | cons line rest inductionHypothesis =>
      rw [List.cons_append, joinLines_cons line (by simp [backNonempty])]
      by_cases last : rest = []
      · subst last
        simp
      · rw [inductionHypothesis last, joinLines_cons line last,
          List.append_assoc, List.cons_append]

/-- Lines of which each is ended by a line feed, in front of further lines. -/
theorem flatMap_terminated_append_joinLines
    (front : List Line)
    {back : List Line}
    (backNonempty : back ≠ []) :
    front.flatMap (fun line => line ++ ['\n']) ++ joinLines back =
      joinLines (front ++ back) := by
  induction front with
  | nil => rfl
  | cons line rest inductionHypothesis =>
      rw [List.flatMap_cons, List.append_assoc, inductionHypothesis, List.cons_append,
        joinLines_cons line (by simp [backNonempty]), List.append_assoc,
        List.singleton_append]

/-- A line without one carriage return at its end. -/
def withoutReturn (line : Line) : Line :=
  if line.getLast? = some '\r' then line.dropLast else line

theorem withoutReturn_eq_self_iff {line : Line} :
    withoutReturn line = line ↔ line.getLast? ≠ some '\r' := by
  unfold withoutReturn
  split
  · next returns =>
      refine iff_of_false ?_ (not_not_intro returns)
      intro same
      have shorter := congrArg List.length same
      have filled : line ≠ [] := by
        rintro rfl
        simp at returns
      have positive := List.length_pos_iff.mpr filled
      rw [List.length_dropLast] at shorter
      omega
  · next returns => exact iff_of_true rfl returns

theorem withoutReturn_sublist (line : Line) : (withoutReturn line).Sublist line := by
  unfold withoutReturn
  split
  · exact List.dropLast_sublist line
  · exact List.Sublist.refl line

/-- Behind something else than a carriage return, the one left out is the line's own. -/
theorem withoutReturn_append
    {front : Line}
    (plain : front.getLast? ≠ some '\r')
    (line : Line) :
    withoutReturn (front ++ line) = front ++ withoutReturn line := by
  cases line with
  | nil =>
      have empty : withoutReturn [] = [] := rfl
      rw [List.append_nil, empty, List.append_nil, withoutReturn_eq_self_iff.mpr plain]
  | cons character rest =>
      have filled : character :: rest ≠ [] := List.cons_ne_nil character rest
      have last : (front ++ character :: rest).getLast? = (character :: rest).getLast? := by
        rw [List.getLast?_append, List.getLast?_eq_some_getLast filled, Option.some_or]
      unfold withoutReturn
      rw [last, List.dropLast_append_of_ne_nil filled]
      split <;> rfl

/-- Drop the last piece when it is empty, and the carriage return in front of
every line feed. -/
def terminatedLines : List Line -> List Line
  | [] => []
  | [last] => if last.isEmpty then [] else [last]
  | line :: next :: rest => withoutReturn line :: terminatedLines (next :: rest)

/-- A text that ends with a line feed has the lines in front of its line feeds. -/
theorem terminatedLines_concat_nil (lines : List Line) :
    terminatedLines (lines ++ [[]]) = lines.map withoutReturn := by
  induction lines with
  | nil => rfl
  | cons line rest inductionHypothesis =>
      obtain ⟨next, others, rest_eq⟩ : ∃ next others, rest ++ [[]] = next :: others :=
        List.exists_cons_of_ne_nil (by simp)
      rw [rest_eq] at inductionHypothesis
      rw [List.cons_append, rest_eq, terminatedLines, inductionHypothesis, List.map_cons]

/-- The lines of a text as a reader counts them: a line ends with a line feed or
with a carriage return and a line feed, and nothing follows the final one. -/
def lines (text : Text) : List Line :=
  terminatedLines (splitLines text)

/-- Every line as a reader counts them is part of a piece of the text. -/
theorem exists_sublist_of_mem_terminatedLines
    {pieces : List Line}
    {line : Line}
    (present : line ∈ terminatedLines pieces) :
    ∃ piece ∈ pieces, line.Sublist piece := by
  induction pieces using terminatedLines.induct with
  | case1 => simp [terminatedLines] at present
  | case2 last empty => simp [terminatedLines, empty] at present
  | case3 last nonempty =>
      rw [terminatedLines, if_neg nonempty, List.mem_singleton] at present
      exact ⟨last, List.mem_singleton_self last, present ▸ List.Sublist.refl line⟩
  | case4 piece next rest inductionHypothesis =>
      simp only [terminatedLines, List.mem_cons] at present
      rcases present with rfl | inRest
      · exact ⟨piece, List.mem_cons_self, withoutReturn_sublist piece⟩
      · obtain ⟨found, inPieces, isSublist⟩ := inductionHypothesis inRest
        exact ⟨found, List.mem_cons_of_mem piece inPieces, isSublist⟩

/-- A line as a reader counts them holds no line feed. -/
theorem lineFeed_not_mem_of_mem_lines
    {text : Text}
    {line : Line}
    (present : line ∈ lines text) :
    '\n' ∉ line := by
  obtain ⟨piece, inPieces, isSublist⟩ := exists_sublist_of_mem_terminatedLines present
  intro lineFeed
  exact lineFeed_not_mem_of_mem_splitLines inPieces (isSublist.subset lineFeed)

/-- A text that is not blank has a line. -/
theorem lines_ne_nil_of_isBlank_eq_false {text : Text} (solid : isBlank text = false) :
    lines text ≠ [] := by
  intro noLines
  have pieces_eq : splitLines text = [[]] := by
    cases cut : splitLines text with
    | nil => exact absurd cut (splitLines_ne_nil text)
    | cons first rest =>
        cases rest with
        | nil =>
            rw [lines, cut, terminatedLines] at noLines
            split at noLines
            · next empty => rw [List.isEmpty_iff.mp empty]
            · exact absurd noLines (List.cons_ne_nil _ _)
        | cons second others =>
            rw [lines, cut, terminatedLines] at noLines
            exact absurd noLines (List.cons_ne_nil _ _)
  have empty : text = [] := by
    rw [← joinLines_splitLines text, pieces_eq, joinLines_singleton]
  rw [empty] at solid
  exact absurd solid (by decide)

end Text
end FortranDocs
