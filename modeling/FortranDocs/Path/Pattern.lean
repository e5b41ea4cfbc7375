import FortranDocs.Text.Basic

/-!
# Wildcard patterns

A pattern describes file names: `?` stands for any character, `*` for any run of
characters, a bracket for one character of a set, and `**`, alone between
slashes, for any run of directories.

`Pattern.parse` refuses a pattern that uses these signs in another way.  The
brackets make it skip ahead, so it is defined by well-founded recursion on the
length of what is left.
-/

namespace FortranDocs

/-- A range of characters, both ends included. -/
structure CharacterRange where
  /-- The least character. -/
  low : Char
  /-- The greatest character. -/
  high : Char
  deriving DecidableEq, Repr

namespace CharacterRange

/-- Whether a character lies in a range. -/
def holds (range : CharacterRange) (character : Char) : Bool :=
  range.low ≤ character && character ≤ range.high

/-- The ranges that the inside of a bracket lists: pairs with a dash between them,
and single characters. -/
def ofBracket : Text -> List CharacterRange
  | low :: '-' :: high :: rest => ⟨low, high⟩ :: ofBracket rest
  | character :: rest => ⟨character, character⟩ :: ofBracket rest
  | [] => []

end CharacterRange

/-- One sign of a pattern. -/
inductive PatternSign
  | letter (letter : Char)
  | anyCharacter
  | anyRun
  | oneOf (ranges : List CharacterRange)
  | noneOf (ranges : List CharacterRange)
  | directories
  deriving DecidableEq, Repr

/-- Why a pattern is refused. -/
inductive PatternFault
  | wildcards
  | recursiveWildcards
  | range
  deriving DecidableEq, Repr

/-- A fault of a pattern and its position, in characters from zero. -/
structure PatternError where
  /-- The place of the fault. -/
  position : Nat
  /-- The fault. -/
  fault : PatternFault
  deriving DecidableEq, Repr

namespace PatternError

/-- The wording of an error. -/
def message (error : PatternError) : String :=
  let reason :=
    match error.fault with
    | .wildcards => "wildcards are either regular `*` or recursive `**`"
    | .recursiveWildcards => "recursive wildcards must form a single path component"
    | .range => "invalid range pattern"
  s!"Pattern syntax error near position {error.position}: {reason}"

end PatternError

/-- A pattern as its signs, in order. -/
abbrev Pattern := List PatternSign

namespace Pattern

/-- Read the inside of a bracket: its sign, how many characters it takes, and what
follows it.  The first character inside, behind a leading `!`, is no end of the
bracket. -/
def readBracket (text : Text) : Option (PatternSign × Nat × Text) :=
  match text with
  | '!' :: first :: rest =>
      match rest.dropWhile (· != ']') with
      | [] => none
      | _ :: after =>
          let inside := rest.takeWhile (· != ']')
          some (.noneOf (CharacterRange.ofBracket (first :: inside)), inside.length + 3, after)
  | ['!'] => none
  | first :: rest =>
      match rest.dropWhile (· != ']') with
      | [] => none
      | _ :: after =>
          let inside := rest.takeWhile (· != ']')
          some (.oneOf (CharacterRange.ofBracket (first :: inside)), inside.length + 2, after)
  | [] => none

/-- What follows the items that were left out, and one more, is shorter than all
items. -/
theorem length_lt_of_dropWhile
    {α : Type}
    {leaveOut : α -> Bool}
    {items rest : List α}
    {next : α}
    (left : items.dropWhile leaveOut = next :: rest) :
    rest.length < items.length := by
  have shorter : (items.dropWhile leaveOut).length ≤ items.length :=
    (List.dropWhile_suffix leaveOut).length_le
  rw [left] at shorter
  exact shorter

theorem readBracket_length
    {text after : Text}
    {sign : PatternSign}
    {taken : Nat}
    (read : readBracket text = some (sign, taken, after)) :
    after.length < text.length := by
  unfold readBracket at read
  split at read
  · split at read
    · simp at read
    · next found =>
        simp only [Option.some.injEq, Prod.mk.injEq] at read
        obtain ⟨-, -, rfl⟩ := read
        have shorter := length_lt_of_dropWhile found
        simp only [List.length_cons]
        omega
  · simp at read
  · split at read
    · simp at read
    · next found =>
        simp only [Option.some.injEq, Prod.mk.injEq] at read
        obtain ⟨-, -, rfl⟩ := read
        have shorter := length_lt_of_dropWhile found
        simp only [List.length_cons]
        omega
  · simp at read

/-- Read signs behind a number of characters, the last of which is given unless
there are none. -/
def parseFrom (position : Nat) (behind : Option Char) (text : Text) :
    Except PatternError Pattern :=
  match text with
  | [] => .ok []
  | '?' :: rest => (parseFrom (position + 1) (some '?') rest).map (.anyCharacter :: ·)
  | '*' :: '*' :: '*' :: _ => .error ⟨position + 2, .wildcards⟩
  | '*' :: '*' :: rest =>
      if behind = none ∨ behind = some '/' then
        match rest with
        | [] => .ok [.directories]
        | '/' :: rest => (parseFrom (position + 3) (some '/') rest).map (.directories :: ·)
        | _ => .error ⟨position + 2, .recursiveWildcards⟩
      else
        .error ⟨position - 1, .recursiveWildcards⟩
  | '*' :: rest => (parseFrom (position + 1) (some '*') rest).map (.anyRun :: ·)
  | '[' :: rest =>
      match _read : readBracket rest with
      | none => .error ⟨position, .range⟩
      | some (sign, taken, after) =>
          (parseFrom (position + taken + 1) (some ']') after).map (sign :: ·)
  | letter :: rest => (parseFrom (position + 1) (some letter) rest).map (.letter letter :: ·)
termination_by text.length
decreasing_by
  all_goals first
    | (simp only [List.length_cons]; omega)
    | (have shorter := readBracket_length _read
       simp only [List.length_cons]
       omega)

/-- Read a pattern. -/
def parse (text : Text) : Except PatternError Pattern :=
  parseFrom 0 none text

/-- Whether a check holds of a text or of one of its ends. -/
def anyEnd (check : Text -> Bool) : Text -> Bool
  | [] => check []
  | character :: rest => check (character :: rest) || anyEnd check rest

/-- Whether a name is described by a pattern. -/
def describes : Pattern -> Text -> Bool
  | [], name => name.isEmpty
  | .anyRun :: rest, name => anyEnd (describes rest) name
  | .directories :: rest, name => anyEnd (describes rest) name
  | _ :: _, [] => false
  | .letter letter :: rest, character :: name => letter == character && describes rest name
  | .anyCharacter :: rest, _ :: name => describes rest name
  | .oneOf ranges :: rest, character :: name =>
      (ranges.any fun range => range.holds character) && describes rest name
  | .noneOf ranges :: rest, character :: name =>
      !(ranges.any fun range => range.holds character) && describes rest name

/-- The only name that a pattern without wildcards describes. -/
def literal? : Pattern -> Option Text
  | [] => some []
  | .letter letter :: rest => (literal? rest).map (letter :: ·)
  | _ :: _ => none

/-- Whether a pattern stands for any run of directories. -/
def isRecursive (pattern : Pattern) : Bool :=
  pattern.contains .directories

end Pattern
end FortranDocs
