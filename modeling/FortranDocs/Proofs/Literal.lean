import FortranDocs.Line

/-!
# Character literals

Outside of its comment a line holds character literals and other characters.  A literal starts and
ends with one of two delimiters; inside, its own delimiter is written twice, and every other
character stands for itself.  The last literal may be left open.

`Scanned.ofLine` reads the literals of a line with a look at the character behind a delimiter, and
`Scanned.ofLine_eq_iff` states that no line can be read in another way.  The code of a line is what
stands in front of the comment in this reading: `Line.code_eq_scanned`.
-/

namespace FortranDocs

/-- A delimiter of character literals. -/
inductive Delimiter
  | apostrophe
  | quotation
  deriving DecidableEq, Repr

namespace Delimiter

/-- The character of a delimiter. -/
def character : Delimiter -> Char
  | apostrophe => '\''
  | quotation => '"'

/-- The delimiter with a given character. -/
def ofCharacter? : Char -> Option Delimiter
  | '\'' => some apostrophe
  | '"' => some quotation
  | _ => none

theorem ofCharacter?_eq_some_iff {delimiter : Delimiter} {character : Char} :
    ofCharacter? character = some delimiter ↔ character = delimiter.character := by
  constructor
  · intro found
    unfold ofCharacter? at found
    split at found
    · obtain rfl := Option.some.inj found
      rfl
    · obtain rfl := Option.some.inj found
      rfl
    · exact absurd found (Option.some_ne_none delimiter).symm
  · rintro rfl
    cases delimiter <;> rfl

theorem character_ne_marker (delimiter : Delimiter) : delimiter.character ≠ '!' := by
  cases delimiter <;> decide

/-- A text inside a literal: the delimiter is written twice. -/
def escaped (delimiter : Delimiter) (value : Text) : Line :=
  value.flatMap fun character =>
    if character = delimiter.character then [character, character] else [character]

@[simp] theorem escaped_nil (delimiter : Delimiter) : delimiter.escaped [] = [] := rfl

@[simp] theorem escaped_cons_self (delimiter : Delimiter) (value : Text) :
    delimiter.escaped (delimiter.character :: value) =
      delimiter.character :: delimiter.character :: delimiter.escaped value := by
  simp [escaped]

theorem escaped_cons_of_ne
    {delimiter : Delimiter}
    {character : Char}
    (other : character ≠ delimiter.character)
    (value : Text) :
    delimiter.escaped (character :: value) = character :: delimiter.escaped value := by
  simp [escaped, other]

/-- Read on inside a literal: its text, and what follows the delimiter that ends it.  A delimiter
in front of another one belongs to the text.  Nothing follows a literal that is left open. -/
def readInside (delimiter : Delimiter) : Line -> Text × Option Line
  | [] => ([], none)
  | character :: rest =>
      if character = delimiter.character then
        match rest with
        | [] => ([], some [])
        | next :: behind =>
            if next = delimiter.character then
              (readInside delimiter behind).map (List.cons character) id
            else
              ([], some (next :: behind))
      else
        (readInside delimiter rest).map (List.cons character) id

/-- What is written behind the first delimiter of a literal. -/
def written (delimiter : Delimiter) : Text × Option Line -> Line
  | (value, none) => delimiter.escaped value
  | (value, some behind) => delimiter.escaped value ++ delimiter.character :: behind

theorem written_map_cons_self (delimiter : Delimiter) (inside : Text × Option Line) :
    delimiter.written (inside.map (List.cons delimiter.character) id) =
      delimiter.character :: delimiter.character :: delimiter.written inside := by
  obtain ⟨value, _ | behind⟩ := inside <;> simp [written]

theorem written_map_cons_of_ne
    {delimiter : Delimiter}
    {character : Char}
    (other : character ≠ delimiter.character)
    (inside : Text × Option Line) :
    delimiter.written (inside.map (List.cons character) id) =
      character :: delimiter.written inside := by
  obtain ⟨value, _ | behind⟩ := inside <;> simp [written, escaped_cons_of_ne other]

/-- Reading on loses nothing, and it ends a literal only in front of something else than a
delimiter. -/
theorem written_readInside (delimiter : Delimiter) (line : Line) :
    delimiter.written (delimiter.readInside line) = line ∧
      ∀ behind ∈ (delimiter.readInside line).2, behind.head? ≠ some delimiter.character := by
  fun_induction readInside delimiter line with
  | case1 => simp [written]
  | case2 => simp [written]
  | case3 behind inductionHypothesis =>
      rw [written_map_cons_self, inductionHypothesis.1]
      exact ⟨rfl, inductionHypothesis.2⟩
  | case4 next behind other => simp [written, other]
  | case5 character rest other inductionHypothesis =>
      rw [written_map_cons_of_ne other, inductionHypothesis.1]
      exact ⟨rfl, inductionHypothesis.2⟩

theorem readInside_self_self (delimiter : Delimiter) (behind : Line) :
    delimiter.readInside (delimiter.character :: delimiter.character :: behind) =
      (delimiter.readInside behind).map (List.cons delimiter.character) id := by
  simp [readInside]

theorem readInside_cons_of_ne
    {delimiter : Delimiter}
    {character : Char}
    (other : character ≠ delimiter.character)
    (rest : Line) :
    delimiter.readInside (character :: rest) =
      (delimiter.readInside rest).map (List.cons character) id := by
  cases rest <;> simp [readInside, other]

theorem readInside_self
    {delimiter : Delimiter}
    {behind : Line}
    (ends : behind.head? ≠ some delimiter.character) :
    delimiter.readInside (delimiter.character :: behind) = ([], some behind) := by
  cases behind with
  | nil => simp [readInside]
  | cons next rest =>
      have other : next ≠ delimiter.character := fun same => ends (congrArg some same)
      simp [readInside, other]

/-- What is written of a literal is read back. -/
theorem readInside_written
    {delimiter : Delimiter}
    {inside : Text × Option Line}
    (ends : ∀ behind ∈ inside.2, behind.head? ≠ some delimiter.character) :
    delimiter.readInside (delimiter.written inside) = inside := by
  obtain ⟨value, behind⟩ := inside
  induction value with
  | nil =>
      cases behind with
      | none => rfl
      | some behind => exact readInside_self (ends behind rfl)
  | cons character rest inductionHypothesis =>
      have readRest := inductionHypothesis ends
      have longer : (character :: rest, behind) =
          Prod.map (List.cons character) id (rest, behind) := rfl
      rw [longer]
      by_cases own : character = delimiter.character
      · rw [own, written_map_cons_self, readInside_self_self, readRest]
      · rw [written_map_cons_of_ne own, readInside_cons_of_ne own, readRest]

/-- What follows a literal is shorter than what follows its first delimiter. -/
theorem length_lt_of_readInside
    {delimiter : Delimiter}
    {line behind : Line}
    {value : Text}
    (read : delimiter.readInside line = (value, some behind)) :
    behind.length < line.length := by
  have whole := (written_readInside delimiter line).1
  rw [read] at whole
  rw [← whole]
  simp only [written, List.length_append, List.length_cons]
  omega

end Delimiter

/-- A line as characters outside of literals and literals in turn.  It ends at its end, inside a
literal that is left open, or in a comment. -/
inductive Scanned
  | finished
  | unclosed (delimiter : Delimiter) (value : Text)
  | comment (text : Line)
  | plain (character : Char) (rest : Scanned)
  | literal (delimiter : Delimiter) (value : Text) (rest : Scanned)
  deriving DecidableEq, Repr

namespace Scanned

/-- What is written in front of the comment. -/
def code : Scanned -> Line
  | finished => []
  | unclosed delimiter value => delimiter.character :: delimiter.escaped value
  | comment _ => []
  | plain character rest => character :: rest.code
  | literal delimiter value rest =>
      delimiter.character :: delimiter.escaped value ++ delimiter.character :: rest.code

/-- The comment with its marker; empty if there is none. -/
def remark : Scanned -> Line
  | finished => []
  | unclosed _ _ => []
  | comment text => '!' :: text
  | plain _ rest => rest.remark
  | literal _ _ rest => rest.remark

/-- The whole line. -/
def line (scanned : Scanned) : Line :=
  scanned.code ++ scanned.remark

/-- Whether nothing is taken for what it is not: outside of literals there is neither a delimiter
nor a comment marker, and behind a literal there is not its own delimiter, which would continue
it. -/
def Proper : Scanned -> Prop
  | finished => True
  | unclosed _ _ => True
  | comment _ => True
  | plain character rest =>
      character ≠ '!' ∧ Delimiter.ofCharacter? character = none ∧ rest.Proper
  | literal delimiter _ rest => rest.line.head? ≠ some delimiter.character ∧ rest.Proper

@[simp] theorem line_finished : finished.line = [] := rfl

@[simp] theorem line_comment (text : Line) : (comment text).line = '!' :: text := rfl

@[simp] theorem line_plain (character : Char) (rest : Scanned) :
    (plain character rest).line = character :: rest.line := rfl

theorem line_unclosed (delimiter : Delimiter) (value : Text) :
    (unclosed delimiter value).line =
      delimiter.character :: delimiter.written (value, none) := by
  simp [line, code, remark, Delimiter.written]

theorem line_literal (delimiter : Delimiter) (value : Text) (rest : Scanned) :
    (literal delimiter value rest).line =
      delimiter.character :: delimiter.written (value, some rest.line) := by
  simp [line, code, remark, Delimiter.written]

/-- Read a line from its start, literal by literal. -/
def ofLine : Line -> Scanned
  | [] => finished
  | first :: rest =>
      if first = '!' then
        comment rest
      else
        match Delimiter.ofCharacter? first with
        | none => plain first (ofLine rest)
        | some delimiter =>
            match _read : delimiter.readInside rest with
            | (value, none) => unclosed delimiter value
            | (value, some behind) => literal delimiter value (ofLine behind)
termination_by line => line.length
decreasing_by
  · exact Nat.lt_succ_self _
  · exact Nat.lt_succ_of_lt (Delimiter.length_lt_of_readInside _read)

/-- What is read from a delimiter on is a literal, and what is read behind it. -/
theorem ofLine_delimiter (delimiter : Delimiter) (rest : Line) :
    ofLine (delimiter.character :: rest) =
      match delimiter.readInside rest with
      | (value, none) => unclosed delimiter value
      | (value, some behind) => literal delimiter value (ofLine behind) := by
  rw [ofLine, if_neg delimiter.character_ne_marker, Delimiter.ofCharacter?_eq_some_iff.mpr rfl]
  dsimp only
  split
  · next value read => rw [read]
  · next value behind read => rw [read]

/-- Reading loses nothing, and it takes nothing for what it is not. -/
theorem line_ofLine (line : Line) : (ofLine line).line = line ∧ (ofLine line).Proper := by
  fun_induction ofLine line with
  | case1 => exact ⟨rfl, trivial⟩
  | case2 rest => exact ⟨rfl, trivial⟩
  | case3 first rest noMarker noDelimiter inductionHypothesis =>
      rw [line_plain, inductionHypothesis.1]
      exact ⟨rfl, noMarker, noDelimiter, inductionHypothesis.2⟩
  | case4 first rest noMarker delimiter found value read =>
      have whole := (delimiter.written_readInside rest).1
      rw [read] at whole
      rw [line_unclosed, whole, Delimiter.ofCharacter?_eq_some_iff.mp found]
      exact ⟨rfl, trivial⟩
  | case5 first rest noMarker delimiter found value behind read inductionHypothesis =>
      obtain ⟨whole, ends⟩ := delimiter.written_readInside rest
      rw [read] at whole ends
      rw [line_literal, inductionHypothesis.1, whole,
        Delimiter.ofCharacter?_eq_some_iff.mp found]
      refine ⟨rfl, ?_, inductionHypothesis.2⟩
      rw [inductionHypothesis.1]
      exact ends behind rfl

/-- A line in which nothing is taken for what it is not is read back. -/
theorem ofLine_line {scanned : Scanned} (proper : scanned.Proper) :
    ofLine scanned.line = scanned := by
  induction scanned with
  | finished => rw [line_finished, ofLine]
  | unclosed delimiter value =>
      rw [line_unclosed, ofLine_delimiter, Delimiter.readInside_written (by simp)]
  | comment text => rw [line_comment, ofLine, if_pos rfl]
  | plain first rest inductionHypothesis =>
      obtain ⟨noMarker, noDelimiter, restProper⟩ := proper
      rw [line_plain, ofLine, if_neg noMarker, noDelimiter]
      simp only [inductionHypothesis restProper]
  | literal delimiter value rest inductionHypothesis =>
      obtain ⟨ends, restProper⟩ := proper
      rw [line_literal, ofLine_delimiter, Delimiter.readInside_written (by simpa using ends)]
      simp only [inductionHypothesis restProper]

/-- A line is read in one way. -/
theorem ofLine_eq_iff {line : Line} {scanned : Scanned} :
    ofLine line = scanned ↔ scanned.line = line ∧ scanned.Proper := by
  constructor
  · rintro rfl
    exact line_ofLine line
  · rintro ⟨rfl, proper⟩
    exact ofLine_line proper

end Scanned

/-! ## Literals and the state of a scan -/

namespace Quoting

/-- The state inside a literal. -/
def inside : Delimiter -> Quoting
  | .apostrophe => .apostrophe
  | .quotation => .quotation

@[simp] theorem after_outside (delimiter : Delimiter) :
    after .outside delimiter.character = inside delimiter := by
  cases delimiter <;> rfl

@[simp] theorem after_inside (delimiter : Delimiter) :
    after (inside delimiter) delimiter.character = .outside := by
  cases delimiter <;> rfl

theorem after_inside_of_ne
    {delimiter : Delimiter}
    {character : Char}
    (other : character ≠ delimiter.character) :
    after (inside delimiter) character = inside delimiter := by
  cases delimiter <;> simp_all [after, inside, Delimiter.character]

theorem after_outside_of_ofCharacter?
    {character : Char}
    (noDelimiter : Delimiter.ofCharacter? character = none) :
    after .outside character = .outside := by
  unfold after
  split <;> simp_all [Delimiter.ofCharacter?]

theorem inside_ne_outside (delimiter : Delimiter) : inside delimiter ≠ .outside := by
  cases delimiter <;> decide

end Quoting

namespace Line

/-- Inside a literal every character is code. -/
theorem codeFrom_inside (delimiter : Delimiter) (character : Char) (rest : Line) :
    codeFrom (.inside delimiter) (character :: rest) =
      character :: codeFrom (Quoting.after (.inside delimiter) character) rest := by
  rw [codeFrom, if_neg fun marked => Quoting.inside_ne_outside delimiter marked.1]

/-- A delimiter outside of literals is code and opens one. -/
theorem codeFrom_outside_delimiter (delimiter : Delimiter) (rest : Line) :
    codeFrom .outside (delimiter.character :: rest) =
      delimiter.character :: codeFrom (.inside delimiter) rest := by
  rw [codeFrom, if_neg fun marked => delimiter.character_ne_marker marked.2,
    Quoting.after_outside]

/-- The text of a literal leaves a scan inside the literal. -/
theorem codeFrom_inside_escaped (delimiter : Delimiter) (value : Text) (rest : Line) :
    codeFrom (.inside delimiter) (delimiter.escaped value ++ rest) =
      delimiter.escaped value ++ codeFrom (.inside delimiter) rest := by
  induction value with
  | nil => rfl
  | cons character value inductionHypothesis =>
      by_cases own : character = delimiter.character
      · -- a delimiter that is written twice closes the literal and opens it again
        rw [own, Delimiter.escaped_cons_self]
        simp only [List.cons_append]
        rw [codeFrom_inside, Quoting.after_inside, codeFrom_outside_delimiter,
          inductionHypothesis]
      · rw [Delimiter.escaped_cons_of_ne own]
        simp only [List.cons_append]
        rw [codeFrom_inside, Quoting.after_inside_of_ne own, inductionHypothesis]

/-- The characters that a scan takes for code are those in front of the comment. -/
theorem codeFrom_line {scanned : Scanned} (proper : scanned.Proper) :
    codeFrom .outside scanned.line = scanned.code := by
  induction scanned with
  | finished => rfl
  | unclosed delimiter value =>
      have open_eq := codeFrom_inside_escaped delimiter value []
      rw [List.append_nil, codeFrom, List.append_nil] at open_eq
      rw [Scanned.line_unclosed, codeFrom_outside_delimiter, Delimiter.written, open_eq,
        Scanned.code]
  | comment text => simp [codeFrom, Scanned.code]
  | plain first rest inductionHypothesis =>
      obtain ⟨noMarker, noDelimiter, restProper⟩ := proper
      rw [Scanned.line_plain, codeFrom, if_neg fun marked => noMarker marked.2,
        Quoting.after_outside_of_ofCharacter? noDelimiter, inductionHypothesis restProper,
        Scanned.code]
  | literal delimiter value rest inductionHypothesis =>
      rw [Scanned.line_literal, codeFrom_outside_delimiter, Delimiter.written,
        codeFrom_inside_escaped, codeFrom_inside, Quoting.after_inside,
        inductionHypothesis proper.2, Scanned.code, List.cons_append]

/-- The code of a line is what stands in front of the comment when the literals of the line, less
one carriage return at its end, are read one by one, and there is no other way to read them. -/
theorem code_eq_scanned (line : Line) :
    line.code = (Scanned.ofLine (Text.withoutReturn line)).code ∧
      ∀ scanned : Scanned,
        Scanned.ofLine (Text.withoutReturn line) = scanned ↔
          scanned.line = Text.withoutReturn line ∧ scanned.Proper := by
  obtain ⟨whole, proper⟩ := Scanned.line_ofLine (Text.withoutReturn line)
  have scan := codeFrom_line proper
  rw [whole] at scan
  exact ⟨scan, fun _ => Scanned.ofLine_eq_iff⟩

/-- A doubled delimiter, the other delimiter and the marker are read as parts of a literal. -/
example :
    Scanned.ofLine "s='it''s \"!'! c".toList =
      .plain 's' (.plain '=' (.literal .apostrophe "it's \"!".toList
        (.comment " c".toList))) := by
  cbv

end Line
end FortranDocs
