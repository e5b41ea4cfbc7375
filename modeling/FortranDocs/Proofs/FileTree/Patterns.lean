import FortranDocs.FileTree.Search
import FortranDocs.Proofs.Inputs.Wildcards

/-!
# What patterns are read from

A text without wildcards is read as a pattern for that text alone, and any other one as a
pattern that is no text: `Pattern.literal?_of_parse`.  Between slashes only `**` is read as a
pattern for directories, `Pattern.isRecursive_of_parse`, and only a text that starts with a dot as a
pattern that starts with one, `Pattern.head?_of_parse`.
-/

namespace FortranDocs
namespace Pattern

theorem exists_of_map_eq_ok
    {Fault Value Result : Type}
    {outcome : Except Fault Value}
    {result : Result}
    {f : Value -> Result}
    (success : outcome.map f = .ok result) :
    ∃ value, outcome = .ok value ∧ f value = result := by
  cases outcome with
  | error fault => exact nomatch success
  | ok value => exact ⟨value, rfl, Except.ok.inj success⟩

/-- The sign of a bracket is a set of characters. -/
theorem exists_ranges_of_readBracket
    {text after : Text}
    {sign : PatternSign}
    {taken : Nat}
    (read : readBracket text = some (sign, taken, after)) :
    ∃ ranges, sign = .oneOf ranges ∨ sign = .noneOf ranges := by
  unfold readBracket at read
  repeat' split at read
  all_goals simp only [Option.some.injEq, Prod.mk.injEq, reduceCtorEq] at read
  all_goals
    obtain ⟨rfl, -, -⟩ := read
    simp

theorem mem_of_mem_dropWhile_cons
    {character mark : Char}
    {text after : Text}
    {leaveOut : Char -> Bool}
    (found : text.dropWhile leaveOut = mark :: after)
    (present : character ∈ after) :
    character ∈ text :=
  (List.dropWhile_sublist leaveOut).mem (found ▸ List.mem_cons_of_mem mark present)

/-- What follows a bracket is part of the text. -/
theorem mem_of_mem_after_readBracket
    {text after : Text}
    {sign : PatternSign}
    {taken : Nat}
    {character : Char}
    (read : readBracket text = some (sign, taken, after))
    (present : character ∈ after) :
    character ∈ text := by
  unfold readBracket at read
  repeat' split at read
  all_goals simp only [Option.some.injEq, Prod.mk.injEq, reduceCtorEq] at read
  all_goals
    next found =>
    obtain ⟨-, -, rfl⟩ := read
    simp [mem_of_mem_dropWhile_cons found present]

/-- A text that is read as a pattern is the only one it describes, if it holds no wildcard. -/
theorem literal?_of_parseFrom
    {position : Nat}
    {behind : Option Char}
    {text : Text}
    {pattern : Pattern}
    (parsed : parseFrom position behind text = .ok pattern) :
    pattern.literal? = if text.hasWildcard then none else some text := by
  fun_induction parseFrom position behind text generalizing pattern with
  | case1 =>
      obtain rfl := Except.ok.inj parsed
      rfl
  | case2 | case5 | case8 =>
      obtain ⟨signs, -, rfl⟩ := exists_of_map_eq_ok parsed
      rfl
  | case3 | case6 | case7 | case9 => exact nomatch parsed
  | case4 =>
      obtain rfl := Except.ok.inj parsed
      rfl
  | case10 position behind rest sign taken after read inductionHypothesis =>
      obtain ⟨signs, -, rfl⟩ := exists_of_map_eq_ok parsed
      obtain ⟨ranges, rfl | rfl⟩ := exists_ranges_of_readBracket read <;> rfl
  | case11 position behind letter rest noMark noThree noTwo noStar noBracket
      inductionHypothesis =>
      obtain ⟨signs, parsedRest, rfl⟩ := exists_of_map_eq_ok parsed
      have plain : decide (letter ∈ ['*', '?', '[']) = false := by
        simp only [List.mem_cons, List.not_mem_nil, or_false, decide_eq_false_iff_not, not_or]
        exact ⟨noStar, noMark, noBracket⟩
      rw [literal?, inductionHypothesis parsedRest, Text.hasWildcard_cons, plain,
        Bool.false_or]
      split <;> rfl

theorem literal?_of_parse
    {text : Text}
    {pattern : Pattern}
    (parsed : parse text = .ok pattern) :
    pattern.literal? = if text.hasWildcard then none else some text :=
  literal?_of_parseFrom parsed

theorem hasWildcard_of_literal?_eq_none
    {text : Text}
    {pattern : Pattern}
    (parsed : parse text = .ok pattern)
    (wild : pattern.literal? = none) :
    text.hasWildcard = true := by
  rw [literal?_of_parse parsed] at wild
  cases found : text.hasWildcard with
  | true => rfl
  | false => simp [found] at wild

theorem eq_of_literal?_eq_some
    {text name : Text}
    {pattern : Pattern}
    (parsed : parse text = .ok pattern)
    (literal : pattern.literal? = some name) :
    name = text ∧ text.hasWildcard = false := by
  rw [literal?_of_parse parsed] at literal
  split at literal
  · simp at literal
  · next plain => exact ⟨(Option.some.inj literal).symm, by simpa using plain⟩

/-- A pattern without wildcards describes its own text and no other. -/
theorem eq_of_describes_literal
    {pattern : Pattern}
    {text name : Text}
    (literal : pattern.literal? = some text)
    (described : pattern.describes name = true) :
    name = text := by
  fun_induction describes pattern name generalizing text with
  | case1 name => simp_all [literal?]
  | case5 letter rest character name inductionHypothesis =>
      obtain ⟨others, behind, rfl⟩ := Option.map_eq_some_iff.mp literal
      obtain ⟨same, describedRest⟩ := Bool.and_eq_true_iff.mp described
      rw [← eq_of_beq same, inductionHypothesis behind describedRest]
  | case4 => simp at described
  | case2 | case3 | case6 | case7 | case8 => exact nomatch literal

/-- Behind a character other than a slash nothing is read as a pattern for directories. -/
theorem directories_not_mem_of_parseFrom
    {position : Nat}
    {behind : Option Char}
    {text : Text}
    {pattern : Pattern}
    (parsed : parseFrom position behind text = .ok pattern)
    (whole : '/' ∉ text)
    (inside : behind ≠ none)
    (apart : behind ≠ some '/') :
    .directories ∉ pattern := by
  fun_induction parseFrom position behind text generalizing pattern with
  | case1 =>
      obtain rfl := Except.ok.inj parsed
      simp
  | case3 | case6 | case7 | case9 => exact nomatch parsed
  | case4 position behind starts => exact absurd starts (not_or.mpr ⟨inside, apart⟩)
  | case5 position behind starts => exact absurd starts (not_or.mpr ⟨inside, apart⟩)
  | case2 | case8 =>
      rename_i inductionHypothesis
      obtain ⟨signs, parsedRest, rfl⟩ := exists_of_map_eq_ok parsed
      have onward := inductionHypothesis parsedRest (List.not_mem_of_not_mem_cons whole)
      simpa using onward
  | case10 position behind rest sign taken after read inductionHypothesis =>
      obtain ⟨signs, parsedRest, rfl⟩ := exists_of_map_eq_ok parsed
      have onward := inductionHypothesis parsedRest
        (fun slash => whole (List.mem_cons_of_mem _ (mem_of_mem_after_readBracket read slash)))
      obtain ⟨ranges, rfl | rfl⟩ := exists_ranges_of_readBracket read <;> simpa using onward
  | case11 position behind letter rest noMark noThree noTwo noStar noBracket
      inductionHypothesis =>
      obtain ⟨signs, parsedRest, rfl⟩ := exists_of_map_eq_ok parsed
      obtain ⟨noSlash, wholeRest⟩ := not_or.mp (mt List.mem_cons.mpr whole)
      have onward := inductionHypothesis parsedRest wholeRest (by simp)
        (fun slash => noSlash (Option.some.inj slash).symm)
      simpa using onward

/-- Between slashes only two stars are read as a pattern for directories. -/
theorem eq_stars_of_isRecursive
    {piece : Text}
    {pattern : Pattern}
    (parsed : parse piece = .ok pattern)
    (whole : '/' ∉ piece)
    (recursive : pattern.isRecursive = true) :
    piece = ['*', '*'] := by
  rw [isRecursive, List.contains_iff_mem] at recursive
  unfold parse at parsed
  revert parsed
  fun_cases parseFrom 0 none piece with
  | case1 =>
      intro parsed
      obtain rfl := Except.ok.inj parsed
      simp at recursive
  | case3 | case6 | case7 | case9 => exact fun parsed => nomatch parsed
  | case4 => exact fun _ => rfl
  | case5 => simp at whole
  | case2 | case8 =>
      intro parsed
      obtain ⟨signs, parsedRest, rfl⟩ := exists_of_map_eq_ok parsed
      have level := directories_not_mem_of_parseFrom parsedRest
        (List.not_mem_of_not_mem_cons whole) (by simp) (by simp)
      simp [level] at recursive
  | case10 rest sign taken after read =>
      intro parsed
      obtain ⟨signs, parsedRest, rfl⟩ := exists_of_map_eq_ok parsed
      have level := directories_not_mem_of_parseFrom parsedRest
        (fun slash => whole (List.mem_cons_of_mem _ (mem_of_mem_after_readBracket read slash)))
        (by simp) (by simp)
      obtain ⟨ranges, rfl | rfl⟩ := exists_ranges_of_readBracket read <;> simp [level] at recursive
  | case11 letter rest =>
      intro parsed
      obtain ⟨signs, parsedRest, rfl⟩ := exists_of_map_eq_ok parsed
      obtain ⟨noSlash, wholeRest⟩ := not_or.mp (mt List.mem_cons.mpr whole)
      have level := directories_not_mem_of_parseFrom parsedRest wholeRest (by simp)
        (fun slash => noSlash (Option.some.inj slash).symm)
      simp [level] at recursive

/-- A pattern that starts with a letter is read from a text that starts with it. -/
theorem head?_of_parse
    {piece : Text}
    {pattern : Pattern}
    {letter : Char}
    (parsed : parse piece = .ok pattern)
    (starts : pattern.head? = some (.letter letter)) :
    piece.head? = some letter := by
  unfold parse at parsed
  revert parsed
  fun_cases parseFrom 0 none piece with
  | case1 =>
      intro parsed
      obtain rfl := Except.ok.inj parsed
      simp at starts
  | case3 | case6 | case7 | case9 => exact fun parsed => nomatch parsed
  | case4 =>
      intro parsed
      obtain rfl := Except.ok.inj parsed
      simp at starts
  | case2 | case5 | case8 =>
      intro parsed
      obtain ⟨signs, -, rfl⟩ := exists_of_map_eq_ok parsed
      simp at starts
  | case10 rest sign taken after read =>
      intro parsed
      obtain ⟨signs, -, rfl⟩ := exists_of_map_eq_ok parsed
      obtain ⟨ranges, rfl | rfl⟩ := exists_ranges_of_readBracket read <;> simp at starts
  | case11 first rest =>
      intro parsed
      obtain ⟨signs, -, rfl⟩ := exists_of_map_eq_ok parsed
      simpa using starts

/-! ## The pieces of a pattern -/

/-- What follows the root in the text of a pattern. -/
def behindRoot (text : Text) : Text :=
  if text.head? = some '/' then text.drop 1 else text

/-- The pieces of a pattern, behind the root if it is absolute. -/
def piecesOf (text : Text) : List Text :=
  let pieces := Text.splitOn '/' (behindRoot text)
  if pieces.length > 1 ∧ pieces.getLast? = some [] then pieces.dropLast else pieces

theorem slash_not_mem_of_mem_piecesOf
    {text piece : Text}
    (present : piece ∈ piecesOf text) :
    '/' ∉ piece := by
  have inAll : piece ∈ Text.splitOn '/' (behindRoot text) := by
    unfold piecesOf at present
    dsimp only at present
    split at present
    · exact (List.dropLast_sublist _).mem present
    · exact present
  exact Text.separator_not_mem_of_mem_splitOn inAll

theorem ofText_behindRoot (text : Text) :
    Component.ofText (behindRoot text) = Component.ofText text := by
  cases text with
  | nil => rfl
  | cons character rest =>
      by_cases slash : character = '/'
      · subst slash
        exact (Component.ofText_append_slash [] rest).symm
      · simp [behindRoot, slash]

/-- The pieces of a pattern stand for its components behind its start. -/
theorem filterMap_piecesOf (text : Text) :
    (piecesOf text).filterMap Component.ofPiece? = Component.ofText text := by
  rw [← ofText_behindRoot, piecesOf, Component.ofText]
  split
  · next closed =>
      obtain ⟨front, all⟩ := List.getLast?_eq_some_iff.mp closed.2
      rw [all, List.dropLast_concat, List.filterMap_append]
      simp
  · rfl

theorem mapM_parse_cons_eq_ok
    {piece : Text}
    {rest : List Text}
    {patterns : List Pattern} :
    (piece :: rest).mapM parse = .ok patterns ↔
      ∃ first others, parse piece = .ok first ∧ rest.mapM parse = .ok others ∧
        patterns = first :: others := by
  rw [List.mapM_cons]
  cases parse piece with
  | error error => simp [bind, Except.bind]
  | ok first =>
      cases rest.mapM parse with
      | error error => simp [bind, Except.bind]
      | ok others => simp [bind, Except.bind, pure, Except.pure, eq_comm (a := patterns)]

theorem exists_cons_of_mapM_parse
    {pieces : List Text}
    {pattern : Pattern}
    {others : List Pattern}
    (parsed : pieces.mapM parse = .ok (pattern :: others)) :
    ∃ piece rest, pieces = piece :: rest ∧ parse piece = .ok pattern ∧
      rest.mapM parse = .ok others := by
  cases pieces with
  | nil => exact nomatch Except.ok.inj parsed
  | cons piece rest =>
      obtain ⟨first, behind, parsedPiece, parsedRest, all⟩ :=
        mapM_parse_cons_eq_ok.mp parsed
      obtain ⟨rfl, rfl⟩ := List.cons.inj all
      exact ⟨piece, rest, rfl, parsedPiece, parsedRest⟩

end Pattern
end FortranDocs
