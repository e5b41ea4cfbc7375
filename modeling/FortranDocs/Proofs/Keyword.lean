import FortranDocs.Kind
import Mathlib.Data.List.TakeWhile

/-!
# Whole words

A keyword is found exactly where it stands as a word of its own, in any letter case, wherever in
the text that is: `Keyword.occursIn_iff`; and likewise the phrase that closes a block,
`Keyword.closingOccursIn_iff`.  `Kind.recognizes_iff` states what the code of a line must hold for
the line to open or to close a block of a kind, and which kind it opens if it could be several.
-/

namespace FortranDocs

namespace Keyword

/-- The letter of a keyword that a character stands for, under case folding: the small letter of
an ASCII letter, and `s` for the long s. -/
def folded (character : Char) : Char :=
  if character = 'ſ' then 's' else character.toLower

/-- Whether a piece of a text is a word when it stands between two others: neither the character
in front of it nor the one behind it is a word character. -/
structure Apart (before after : Text) : Prop where
  front : ∀ character ∈ before.getLast?, isWordCharacter character = false
  back : ∀ character ∈ after.head?, isWordCharacter character = false

/-- Whether a keyword stands in a text as a word. -/
def StandsIn (keyword text : Text) : Prop :=
  ∃ before word after, text = before ++ word ++ after ∧
    word.map folded = keyword ∧ Apart before after

/-- Whether a closing phrase for a keyword stands in a text: the word `end` and the keyword, with
any white space or none in between. -/
def ClosingStandsIn (keyword text : Text) : Prop :=
  ∃ before ending space word after, text = before ++ ending ++ space ++ word ++ after ∧
    ending.map folded = "end".toList ∧ space.all isSpace = true ∧
      word.map folded = keyword ∧ Apart before after

/-- White space has no letter case. -/
theorem folded_of_isSpace {character : Char} (space : isSpace character = true) :
    folded character = character := by
  have noLongS : character ≠ 'ſ' := by
    rintro rfl
    exact absurd space (by decide)
  rw [folded, if_neg noLongS]
  unfold Char.toLower
  split
  · next upper =>
      simp only [isSpace, Bool.or_eq_true, Bool.and_eq_true, beq_iff_eq,
        decide_eq_true_eq, Char.toNat] at space
      simp only [ge_iff_le, UInt32.le_iff_toNat_le] at upper
      have low : 65 ≤ character.val.toNat := upper.1
      have high : character.val.toNat ≤ 90 := upper.2
      omega
  · rfl

/-- A word does not start with white space if the keyword does not. -/
theorem isSpace_eq_false_of_folded
    {letter character : Char}
    (letterSolid : isSpace letter = false)
    (spelled : folded character = letter) :
    isSpace character = false := by
  rw [Bool.eq_false_iff]
  intro space
  rw [← spelled, folded_of_isSpace space, space] at letterSolid
  exact Bool.false_ne_true letterSolid.symm

/-! ## The start of a text -/

theorem matchesLetter_iff {letter character : Char} (noLongS : letter ≠ 'ſ') :
    matchesLetter letter character = true ↔ folded character = letter := by
  simp only [matchesLetter, folded, Bool.or_eq_true, Bool.and_eq_true, beq_iff_eq]
  by_cases longS : character = 'ſ'
  · subst longS
    have unchanged : 'ſ'.toLower = 'ſ' := by decide
    simp only [unchanged, and_true, if_true, eq_comm, noLongS, false_or]
  · simp only [longS, and_false, or_false, if_false]

/-- What follows a keyword follows a word that is the keyword in some letter case. -/
theorem dropKeyword_eq_some_iff
    {keyword text rest : Text}
    (noLongS : 'ſ' ∉ keyword) :
    dropKeyword keyword text = some rest ↔
      ∃ word, text = word ++ rest ∧ word.map folded = keyword := by
  induction keyword generalizing text with
  | nil => simp [dropKeyword]
  | cons letter letters inductionHypothesis =>
      obtain ⟨letterPlain, lettersPlain⟩ := List.ne_and_not_mem_of_not_mem_cons noLongS
      cases text with
      | nil =>
          simp only [dropKeyword, reduceCtorEq, false_iff, not_exists, not_and]
          rintro word empty
          rw [(List.append_eq_nil_iff.mp empty.symm).1]
          exact (List.cons_ne_nil letter letters).symm
      | cons character others =>
          rw [dropKeyword]
          simp only [matchesLetter_iff (Ne.symm letterPlain)]
          constructor
          · intro dropped
            split at dropped
            · next matched =>
                obtain ⟨word, rfl, spelled⟩ := (inductionHypothesis lettersPlain).mp dropped
                exact ⟨character :: word, rfl, by rw [List.map_cons, matched, spelled]⟩
            · exact absurd dropped (Option.some_ne_none rest).symm
          · rintro ⟨word, text_eq, spelled⟩
            obtain ⟨first, wordRest, rfl, matched, restSpelled⟩ :=
              List.map_eq_cons_iff.mp spelled
            obtain ⟨rfl, rfl⟩ := List.cons.inj text_eq
            rw [if_pos matched]
            exact (inductionHypothesis lettersPlain).mpr ⟨wordRest, rfl, restSpelled⟩

theorem endsWord_iff {text : Text} :
    endsWord text = true ↔ ∀ character ∈ text.head?, isWordCharacter character = false := by
  cases text with
  | nil => simp [endsWord]
  | cons character rest => simp [endsWord]

theorem opensText_iff {keyword text : Text} (noLongS : 'ſ' ∉ keyword) :
    opensText keyword text = true ↔
      ∃ word after, text = word ++ after ∧ word.map folded = keyword ∧ endsWord after = true := by
  unfold opensText
  constructor
  · intro opened
    split at opened
    · next after dropped =>
        obtain ⟨word, text_eq, spelled⟩ := (dropKeyword_eq_some_iff noLongS).mp dropped
        exact ⟨word, after, text_eq, spelled, opened⟩
    · exact absurd opened Bool.false_ne_true
  · rintro ⟨word, after, text_eq, spelled, ends⟩
    rw [(dropKeyword_eq_some_iff noLongS).mpr ⟨word, text_eq, spelled⟩]
    exact ends

/-- A closing phrase takes all white space behind `end`, as no keyword starts with any. -/
theorem closesText_iff
    {letter : Char}
    {letters text : Text}
    (noLongS : 'ſ' ∉ letter :: letters)
    (letterSolid : isSpace letter = false) :
    closesText (letter :: letters) text = true ↔
      ∃ ending space word after, text = ending ++ space ++ word ++ after ∧
        ending.map folded = "end".toList ∧ space.all isSpace = true ∧
          word.map folded = letter :: letters ∧ endsWord after = true := by
  unfold closesText
  constructor
  · intro closed
    split at closed
    · next rest dropped =>
        obtain ⟨ending, text_eq, ends⟩ := (dropKeyword_eq_some_iff (by decide)).mp dropped
        obtain ⟨word, after, rest_eq, spelled, whole⟩ := (opensText_iff noLongS).mp closed
        refine ⟨ending, rest.takeWhile isSpace, word, after, ?_, ends, ?_, spelled, whole⟩
        · rw [List.append_assoc, ← rest_eq, List.append_assoc, List.takeWhile_append_dropWhile,
            text_eq]
        · exact List.all_takeWhile
    · exact absurd closed Bool.false_ne_true
  · rintro ⟨ending, space, word, after, text_eq, ends, blank, spelled, whole⟩
    have dropped : dropKeyword "end".toList text = some (space ++ (word ++ after)) := by
      apply (dropKeyword_eq_some_iff (by decide)).mpr
      exact ⟨ending, by simpa only [List.append_assoc] using text_eq, ends⟩
    have solid : (word ++ after).dropWhile isSpace = word ++ after := by
      obtain ⟨first, rest, rfl, matched, -⟩ := List.map_eq_cons_iff.mp spelled
      apply List.dropWhile_cons_of_neg
      rw [isSpace_eq_false_of_folded letterSolid matched]
      exact Bool.false_ne_true
    rw [dropped]
    dsimp only
    rw [List.dropWhile_append_of_pos (List.all_eq_true.mp blank), solid]
    exact (opensText_iff noLongS).mpr ⟨word, after, rfl, spelled, whole⟩

/-! ## Every place of a text -/

/-- A search finds what starts at some place that is not directly behind a word character. -/
theorem foundFrom_iff {startsHere : Text -> Bool} {behindWord : Bool} {text : Text} :
    foundFrom startsHere behindWord text = true ↔
      ∃ before after, text = before ++ after ∧
        before.getLast?.elim behindWord isWordCharacter = false ∧ startsHere after = true := by
  induction text generalizing behindWord with
  | nil =>
      simp only [foundFrom, Bool.and_eq_true, Bool.not_eq_true', List.nil_eq_append_iff]
      constructor
      · exact fun found => ⟨[], [], ⟨rfl, rfl⟩, found.1, found.2⟩
      · rintro ⟨_, _, ⟨rfl, rfl⟩, front, starts⟩
        exact ⟨front, starts⟩
  | cons character rest inductionHypothesis =>
      have last (before : Text) :
          (character :: before).getLast?.elim behindWord isWordCharacter =
            before.getLast?.elim (isWordCharacter character) isWordCharacter := by
        rw [List.getLast?_cons]
        cases before.getLast? <;> rfl
      rw [foundFrom, Bool.or_eq_true, Bool.and_eq_true, Bool.not_eq_true', inductionHypothesis]
      constructor
      · rintro (⟨front, starts⟩ | ⟨before, after, rfl, front, starts⟩)
        · exact ⟨[], character :: rest, rfl, front, starts⟩
        · exact ⟨character :: before, after, rfl, (last before).trans front, starts⟩
      · rintro ⟨before, after, text_eq, front, starts⟩
        cases before with
        | nil =>
            rw [List.nil_append] at text_eq
            subst text_eq
            exact .inl ⟨front, starts⟩
        | cons first others =>
            obtain ⟨rfl, rfl⟩ := List.cons.inj text_eq
            exact .inr ⟨others, after, rfl, (last others).symm.trans front, starts⟩

theorem elim_getLast?_iff {before : Text} :
    before.getLast?.elim false isWordCharacter = false ↔
      ∀ character ∈ before.getLast?, isWordCharacter character = false := by
  cases before.getLast? <;> simp

/-- A keyword is found exactly in a text in which it stands as a word. -/
theorem occursIn_iff {keyword text : Text} (noLongS : 'ſ' ∉ keyword) :
    occursIn keyword text = true ↔ StandsIn keyword text := by
  rw [occursIn, foundFrom_iff]
  simp only [opensText_iff noLongS, elim_getLast?_iff, endsWord_iff]
  constructor
  · rintro ⟨before, _, rfl, front, word, after, rfl, spelled, back⟩
    exact ⟨before, word, after, by rw [List.append_assoc], spelled, front, back⟩
  · rintro ⟨before, word, after, rfl, spelled, apart⟩
    exact ⟨before, word ++ after, by rw [List.append_assoc], apart.front, word, after, rfl,
      spelled, apart.back⟩

/-- A closing phrase is found exactly in a text in which it stands. -/
theorem closingOccursIn_iff
    {letter : Char}
    {letters text : Text}
    (noLongS : 'ſ' ∉ letter :: letters)
    (letterSolid : isSpace letter = false) :
    closingOccursIn (letter :: letters) text = true ↔
      ClosingStandsIn (letter :: letters) text := by
  rw [closingOccursIn, foundFrom_iff]
  simp only [closesText_iff noLongS letterSolid, elim_getLast?_iff, endsWord_iff]
  constructor
  · rintro ⟨before, _, rfl, front, ending, space, word, after, rfl, ends, blank, spelled, back⟩
    exact ⟨before, ending, space, word, after, by simp only [List.append_assoc], ends, blank,
      spelled, front, back⟩
  · rintro ⟨before, ending, space, word, after, rfl, ends, blank, spelled, apart⟩
    exact ⟨before, ending ++ space ++ word ++ after, by simp only [List.append_assoc],
      apart.front, ending, space, word, after, rfl, ends, blank, spelled, apart.back⟩

end Keyword

namespace Kind

theorem keyword_eq_cons (kind : Kind) :
    ∃ letter letters, kind.keyword.toList = letter :: letters ∧ isSpace letter = false := by
  cases kind <;> exact ⟨_, _, rfl, by decide⟩

theorem longS_not_mem_keyword (kind : Kind) : 'ſ' ∉ kind.keyword.toList := by
  cases kind <;> decide

/-- Whether a part of a line is what stands in front of its first comma or colon. -/
def Declares (part code : Line) : Prop :=
  ∃ rest, code = part ++ rest ∧ (∀ character ∈ part, character ≠ ',' ∧ character ≠ ':') ∧
    ∀ character ∈ rest.head?, character = ',' ∨ character = ':'

theorem declares_iff {part code : Line} : Declares part code ↔ part = declarationPart code := by
  unfold Declares declarationPart
  constructor
  · rintro ⟨rest, rfl, plain, ends⟩
    rw [List.takeWhile_append_of_pos (by simpa using plain)]
    cases rest with
    | nil => simp
    | cons first others =>
        have stops := ends first rfl
        rw [List.takeWhile_cons_of_neg (by rcases stops with rfl | rfl <;> decide),
          List.append_nil]
  · rintro rfl
    refine ⟨_, (List.takeWhile_append_dropWhile).symm, ?_, ?_⟩
    · intro character present
      simpa using List.mem_takeWhile_imp present
    · intro character first
      have stops := List.head?_dropWhile_not
        (fun character => character != ',' && character != ':') code
      rw [Option.mem_def.mp first] at stops
      simpa [Decidable.or_iff_not_imp_left] using stops

/-- What the code of a line holds that opens a block of a kind: its keyword, as a word.  A type
definition has it in front of the first comma or colon, and no parenthesis there. -/
def OpenedIn (kind : Kind) (code : Line) : Prop :=
  match kind with
  | .type =>
      ∃ declaration, Declares declaration code ∧
        Keyword.StandsIn kind.keyword.toList declaration ∧
          '(' ∉ declaration ∧ ')' ∉ declaration
  | _ => Keyword.StandsIn kind.keyword.toList code

/-- What the code of a line holds that closes a block of a kind. -/
def ClosedIn (kind : Kind) (code : Line) : Prop :=
  Keyword.ClosingStandsIn kind.keyword.toList code

theorem opens_iff {kind : Kind} {line : Line} :
    kind.opens line = true ↔ kind.OpenedIn line.code := by
  have occurs (text : Text) : Keyword.occursIn kind.keyword.toList text = true ↔
      Keyword.StandsIn kind.keyword.toList text :=
    Keyword.occursIn_iff kind.longS_not_mem_keyword
  cases kind with
  | type =>
      have noParenthesis (text : Text) :
          (text.all fun character => character != '(' && character != ')') = true ↔
            '(' ∉ text ∧ ')' ∉ text := by
        simp only [List.all_eq_true, Bool.and_eq_true, bne_iff_ne, forall_and, ne_eq]
        rw [List.forall_mem_ne', List.forall_mem_ne']
      simp only [opens, OpenedIn, declares_iff, exists_eq_left, Bool.and_eq_true, occurs,
        noParenthesis]
  | _ => exact occurs line.code

theorem closes_iff {kind : Kind} {line : Line} :
    kind.closes line = true ↔ kind.ClosedIn line.code := by
  have noLongS := kind.longS_not_mem_keyword
  obtain ⟨letter, letters, keyword_eq, letterSolid⟩ := kind.keyword_eq_cons
  rw [closes, ClosedIn]
  rw [keyword_eq] at noLongS ⊢
  exact Keyword.closingOccursIn_iff noLongS letterSolid

/-- A line opens or closes a block of a kind exactly if its code holds the keyword or the closing
phrase as words, and of several kinds that it could open it opens the first. -/
theorem recognizes_iff (kind : Kind) (line : Line) :
    (kind.opens line = true ↔ kind.OpenedIn line.code) ∧
      (kind.closes line = true ↔ kind.ClosedIn line.code) ∧
        (openedBy line = some kind ↔
          ∃ earlier later, [program, module, function, subroutine, type] =
              earlier ++ kind :: later ∧
            kind.OpenedIn line.code ∧ ∀ other ∈ earlier, ¬ other.OpenedIn line.code) := by
  refine ⟨opens_iff, closes_iff, ?_⟩
  rw [openedBy, List.find?_eq_some_iff_append]
  simp only [opens_iff, all, Bool.not_eq_true', ← Bool.not_eq_true, opens_iff]
  constructor
  · rintro ⟨opened, earlier, later, all_eq, unopened⟩
    exact ⟨earlier, later, all_eq, opened, unopened⟩
  · rintro ⟨earlier, later, all_eq, opened, unopened⟩
    exact ⟨opened, earlier, later, all_eq, unopened⟩

/-- A later place is found behind a name that only starts like the keyword. -/
example :
    openedBy "modules = 1; MODULE shapes".toList = some .module ∧
      subroutine.opens "recursive ſubroutine walk".toList = true ∧
      function.closes "append function; end\tfunction".toList = true ∧
      type.opens "select type (shape)".toList = false := by
  decide

end Kind
end FortranDocs
