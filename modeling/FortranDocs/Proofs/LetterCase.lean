import FortranDocs.Proofs.Tree.Alike
import Mathlib.Tactic.IntervalCases

/-!
# Letter case in a line

Fortran does not tell capital letters from small ones.  Every scan of a line gives the same
answer when the ASCII letters of the line change their case, each on its own: a comment, a
literal, a word boundary or a continuation marker is made of other characters, and keywords
are matched in any case.  `Line.alike_lowered` collects what a reader sees of a line.
-/

namespace FortranDocs

/-- The capital letters of ASCII. -/
def capitals : List Char :=
  ['A', 'B', 'C', 'D', 'E', 'F', 'G', 'H', 'I', 'J', 'K', 'L', 'M', 'N', 'O', 'P', 'Q', 'R',
    'S', 'T', 'U', 'V', 'W', 'X', 'Y', 'Z']

/-- The characters, besides white space and word characters, that a reader looks for. -/
def marks : List Char :=
  ['!', '\'', '"', '&', ',', ':', '(', ')', ' ', '\n', '\r', 'ſ']

/-- Only a capital letter changes in the small case. -/
theorem mem_capitals_of_toLower_ne
    {character : Char}
    (changed : character.toLower ≠ character) :
    character ∈ capitals := by
  unfold Char.toLower at changed
  split at changed
  · next upper =>
      simp only [ge_iff_le, UInt32.le_iff_toNat_le] at upper
      obtain ⟨low, high⟩ : 65 ≤ character.toNat ∧ character.toNat ≤ 90 := upper
      rw [← Char.ofNat_toNat character]
      generalize character.toNat = code at low high
      interval_cases code <;> decide
  · exact absurd rfl changed

/-- What is the same for a capital letter and its small one is the same for any two cases of
a letter. -/
theorem apply_toLower
    {Value : Type}
    (look : Char -> Value)
    (onCapitals : (capitals.map fun capital => look capital.toLower) = capitals.map look)
    (character : Char) :
    look character.toLower = look character := by
  by_cases same : character.toLower = character
  · rw [same]
  · exact List.map_inj_left.mp onCapitals character (mem_capitals_of_toLower_ne same)

/-- A small letter stays small. -/
theorem toLower_toLower (character : Char) : character.toLower.toLower = character.toLower :=
  apply_toLower Char.toLower (by decide) character

/-- White space has no letters. -/
@[simp] theorem isSpace_toLower (character : Char) :
    isSpace character.toLower = isSpace character :=
  apply_toLower isSpace (by decide) character

@[simp] theorem isWordCharacter_toLower (character : Char) :
    isWordCharacter character.toLower = isWordCharacter character :=
  apply_toLower isWordCharacter (by decide) character

/-- No mark is a letter in one case or the other. -/
theorem toLower_eq_mark_iff
    {mark : Char}
    (isMark : mark ∈ marks)
    (character : Char) :
    character.toLower = mark ↔ character = mark := by
  have looks := apply_toLower (fun character => marks.map fun mark => decide (character = mark))
    (by decide) character
  exact decide_eq_decide.mp (List.map_inj_left.mp looks mark isMark)

/-- No letter opens or closes a literal. -/
@[simp] theorem Quoting.after_toLower (state : Quoting) (character : Char) :
    state.after character.toLower = state.after character := by
  cases state with
  | outside => exact apply_toLower (Quoting.after .outside) (by decide) character
  | apostrophe => exact apply_toLower (Quoting.after .apostrophe) (by decide) character
  | quotation => exact apply_toLower (Quoting.after .quotation) (by decide) character

namespace Text

/-- The text with small letters in the place of the capital ones of ASCII. -/
def lowered (text : Text) : Text :=
  text.map Char.toLower

/-- Two texts that differ in the case of ASCII letters alone. -/
def SameButCase (left right : Text) : Prop :=
  lowered left = lowered right

instance (left right : Text) : Decidable (left.SameButCase right) :=
  inferInstanceAs (Decidable (left.lowered = right.lowered))

/-- A text ends in a mark in any case of its letters. -/
theorem getLast?_lowered_eq_mark_iff
    {mark : Char}
    (isMark : mark ∈ marks)
    (text : Text) :
    (lowered text).getLast? = some mark ↔ text.getLast? = some mark := by
  rw [lowered, List.getLast?_map, Option.map_eq_some_iff]
  simp only [toLower_eq_mark_iff isMark]
  simp

/-- The carriage return at the end of a line has no case. -/
theorem withoutReturn_lowered (line : Line) :
    withoutReturn (lowered line) = lowered (withoutReturn line) := by
  simp only [withoutReturn, getLast?_lowered_eq_mark_iff (show '\r' ∈ marks by decide)]
  split
  · rw [lowered, lowered, List.map_dropLast]
  · rfl

/-- The white space in front of a text has no case. -/
theorem dropWhile_isSpace_lowered (text : Text) :
    (lowered text).dropWhile isSpace = lowered (text.dropWhile isSpace) := by
  rw [lowered, List.dropWhile_map, lowered]
  congr 2
  funext character
  exact isSpace_toLower character

theorem trimEnd_lowered (text : Text) : trimEnd (lowered text) = lowered (trimEnd text) := by
  have reversed : (lowered text).reverse = lowered text.reverse := List.map_reverse.symm
  rw [trimEnd, reversed, dropWhile_isSpace_lowered, trimEnd, lowered, lowered,
    List.map_reverse]

theorem isBlank_lowered (text : Text) : isBlank (lowered text) = isBlank text := by
  simp [isBlank, lowered, Function.comp_def]

theorem lowered_joinLines (lines : List Line) :
    lowered (joinLines lines) = joinLines (lines.map lowered) := by
  induction lines with
  | nil => rfl
  | cons line rest inductionHypothesis =>
      by_cases last : rest = []
      · subst last
        simp
      · rw [joinLines_cons line last, List.map_cons, joinLines_cons _ (by simpa using last),
          ← inductionHypothesis, lowered, List.map_append, List.map_cons]
        rfl

/-- A text in small letters has the lines of the text, each in small letters. -/
theorem splitLines_lowered (text : Text) :
    splitLines (lowered text) = (splitLines text).map lowered := by
  have whole : ∀ line ∈ (splitLines text).map lowered, '\n' ∉ line := by
    rw [List.forall_mem_map]
    intro line present inLine
    obtain ⟨character, inOriginal, lineFeed⟩ := List.mem_map.mp inLine
    rw [toLower_eq_mark_iff (by decide)] at lineFeed
    exact lineFeed_not_mem_of_mem_splitLines present (lineFeed ▸ inOriginal)
  have lowered_eq := lowered_joinLines (splitLines text)
  rw [joinLines_splitLines] at lowered_eq
  rw [lowered_eq]
  exact splitLines_joinLines (by simp) whole

end Text

/-! ## Keywords -/

namespace Keyword

open Text

/-- The letter of a keyword matches a character in either case, and the long s in none. -/
theorem matchesLetter_toLower (letter character : Char) :
    matchesLetter letter character.toLower = matchesLetter letter character := by
  have longS : (character.toLower == 'ſ') = (character == 'ſ') := by
    rw [Bool.eq_iff_iff, beq_iff_eq, beq_iff_eq, toLower_eq_mark_iff (by decide)]
  simp only [matchesLetter, toLower_toLower, longS]

/-- What is behind a keyword is found in any case of the letters. -/
theorem dropKeyword_lowered (keyword text : Text) :
    dropKeyword keyword (lowered text) = (dropKeyword keyword text).map lowered := by
  induction keyword generalizing text with
  | nil => rfl
  | cons letter letters inductionHypothesis =>
      cases text with
      | nil => rfl
      | cons character rest =>
          have rest_eq := inductionHypothesis rest
          simp only [lowered, List.map_cons, dropKeyword, matchesLetter_toLower] at rest_eq ⊢
          split
          · exact rest_eq
          · rfl

theorem endsWord_lowered (text : Text) : endsWord (lowered text) = endsWord text := by
  cases text with
  | nil => rfl
  | cons character rest => simp [lowered, endsWord]

/-- A text starts with an opening word in any case of its letters. -/
theorem opensText_lowered (keyword text : Text) :
    opensText keyword (lowered text) = opensText keyword text := by
  rw [opensText, opensText, dropKeyword_lowered]
  cases dropKeyword keyword text with
  | none => rfl
  | some rest => exact endsWord_lowered rest

/-- A text starts with closing words in any case of its letters. -/
theorem closesText_lowered (keyword text : Text) :
    closesText keyword (lowered text) = closesText keyword text := by
  rw [closesText, closesText, dropKeyword_lowered]
  cases dropKeyword "end".toList text with
  | none => rfl
  | some rest =>
      simp only [Option.map_some, dropWhile_isSpace_lowered, opensText_lowered]

/-- A search finds in any case of the letters what each place shows in any case. -/
theorem foundFrom_lowered
    {startsHere : Text -> Bool}
    (anyCase : ∀ text, startsHere (lowered text) = startsHere text)
    (behindWord : Bool)
    (text : Text) :
    foundFrom startsHere behindWord (lowered text) = foundFrom startsHere behindWord text := by
  induction text generalizing behindWord with
  | nil => rfl
  | cons character rest inductionHypothesis =>
      have here := anyCase (character :: rest)
      simp only [lowered, List.map_cons] at here inductionHypothesis ⊢
      rw [foundFrom, foundFrom, here, inductionHypothesis, isWordCharacter_toLower]

theorem occursIn_lowered (keyword text : Text) :
    occursIn keyword (lowered text) = occursIn keyword text :=
  foundFrom_lowered (opensText_lowered keyword) false text

theorem closingOccursIn_lowered (keyword text : Text) :
    closingOccursIn keyword (lowered text) = closingOccursIn keyword text :=
  foundFrom_lowered (closesText_lowered keyword) false text

end Keyword

/-! ## Lines -/

namespace Line

open Text

/-- The code of a line in small letters is its code, in small letters. -/
theorem codeFrom_lowered (state : Quoting) (line : Line) :
    codeFrom state (lowered line) = lowered (codeFrom state line) := by
  induction line generalizing state with
  | nil => rfl
  | cons character rest inductionHypothesis =>
      simp only [lowered, List.map_cons, codeFrom, Quoting.after_toLower,
        toLower_eq_mark_iff (show '!' ∈ marks by decide)] at inductionHypothesis ⊢
      split
      · rfl
      · rw [inductionHypothesis, List.map_cons]

theorem code_lowered (line : Line) : code (lowered line) = lowered (code line) := by
  rw [code, withoutReturn_lowered, codeFrom_lowered, code]

/-- The declaring part of a line ends at a comma or a colon, which are no letters. -/
theorem declarationPart_lowered (code : Line) :
    Kind.declarationPart (lowered code) = lowered (Kind.declarationPart code) := by
  rw [Kind.declarationPart, Kind.declarationPart, lowered, List.takeWhile_map, lowered]
  congr 2
  funext character
  simp only [Function.comp_apply, bne, beq_eq_decide,
    toLower_eq_mark_iff (show ',' ∈ marks by decide),
    toLower_eq_mark_iff (show ':' ∈ marks by decide)]

/-- A line opens the same kinds in any case of its letters. -/
theorem opens_lowered (kind : Kind) (line : Line) :
    kind.opens (lowered line) = kind.opens line := by
  have noParenthesis (text : Text) :
      ((lowered text).all fun character => character != '(' && character != ')') =
        text.all fun character => character != '(' && character != ')' := by
    simp only [lowered, List.all_map, Function.comp_def, bne, beq_eq_decide,
      toLower_eq_mark_iff (show '(' ∈ marks by decide),
      toLower_eq_mark_iff (show ')' ∈ marks by decide)]
  cases kind <;>
    simp only [Kind.opens, code_lowered, declarationPart_lowered, Keyword.occursIn_lowered,
      noParenthesis]

/-- A line is continued in any case of its letters. -/
theorem isContinued_lowered (line : Line) :
    isContinued (lowered line) = isContinued line := by
  rw [isContinued, isContinued, code_lowered, trimEnd_lowered, Bool.eq_iff_iff, beq_iff_eq,
    beq_iff_eq, getLast?_lowered_eq_mark_iff (by decide)]

theorem isBlank_lowered (line : Line) :
    Line.isBlank (lowered line) = Line.isBlank line := by
  rw [Line.isBlank, withoutReturn_lowered, Text.isBlank_lowered, Line.isBlank]

/-- A line is a comment in any case of its letters. -/
theorem isComment_lowered (line : Line) : isComment (lowered line) = isComment line := by
  rw [isComment, isComment, withoutReturn_lowered, trimStart, dropWhile_isSpace_lowered,
    trimStart]
  cases List.dropWhile isSpace (withoutReturn line) with
  | nil => rfl
  | cons character rest =>
      simp [lowered, beq_eq_decide, toLower_eq_mark_iff (show '!' ∈ marks by decide)]

/-- A line is indented alike in any case of its letters. -/
theorem indentWidth_lowered (line : Line) :
    indentWidth (lowered line) = indentWidth line := by
  rw [indentWidth, lowered, List.takeWhile_map, List.length_map, indentWidth]
  congr 2
  funext character
  simp only [Function.comp_apply, beq_eq_decide, toLower_eq_mark_iff (show ' ' ∈ marks by decide)]

/-- A reader takes a line alike whatever the case of its letters. -/
theorem alike_lowered (line : Line) : line.Alike (lowered line) where
  openedBy_eq := by
    simp only [Kind.openedBy, opens_lowered]
  closes_eq := by
    intro kind
    simp only [Kind.closes, code_lowered, Keyword.closingOccursIn_lowered]
  isContinued_eq := (isContinued_lowered line).symm
  isDocumentation_eq := by
    simp only [isDocumentation, Line.isBlank_lowered, isComment_lowered]
  isBlank_eq := (Line.isBlank_lowered line).symm
  indentWidth_eq := (indentWidth_lowered line).symm

end Line

/-- A line ends in the same way in any case of its letters. -/
theorem LineEnding.ofLine_lowered (line : Line) : ofLine (Text.lowered line) = ofLine line := by
  simp only [ofLine, Text.getLast?_lowered_eq_mark_iff (show '\r' ∈ marks by decide)]

end FortranDocs
