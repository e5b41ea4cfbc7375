import FortranDocs.Text.Basic
import FortranDocs.Text.Word

/-!
# Keywords as whole words

A keyword is found in a text in any letter case, and only where no word
character touches it.  A closing phrase is the word `end`, any white space or
none, and the keyword.
-/

namespace FortranDocs
namespace Keyword

/-- Whether a character is a case variant of a small letter.  Under simple case
folding the letter `s` has one variant beyond ASCII, the long s. -/
def matchesLetter (letter character : Char) : Bool :=
  character.toLower == letter || (letter == 's' && character == 'ſ')

/-- What follows a keyword at the start of a text. -/
def dropKeyword : (keyword text : Text) -> Option Text
  | [], text => some text
  | _ :: _, [] => none
  | letter :: letters, character :: rest =>
      if matchesLetter letter character then dropKeyword letters rest else none

/-- Whether a word can end in front of a text. -/
def endsWord : Text -> Bool
  | [] => true
  | character :: _ => !isWordCharacter character

/-- A text that starts with the keyword as a word of its own. -/
def opensText (keyword text : Text) : Bool :=
  match dropKeyword keyword text with
  | some rest => endsWord rest
  | none => false

/-- A text that starts with a closing phrase for the keyword. -/
def closesText (keyword text : Text) : Bool :=
  match dropKeyword "end".toList text with
  | some rest => opensText keyword (rest.dropWhile isSpace)
  | none => false

/-- Whether some place in a text, not directly behind a word character, starts
with what is looked for.  The flag tells whether a word character stands in front
of the text. -/
def foundFrom (startsHere : Text -> Bool) : (behindWord : Bool) -> Text -> Bool
  | behindWord, [] => !behindWord && startsHere []
  | behindWord, character :: rest =>
      (!behindWord && startsHere (character :: rest)) ||
        foundFrom startsHere (isWordCharacter character) rest

/-- The keyword occurs in a text as a whole word. -/
def occursIn (keyword text : Text) : Bool :=
  foundFrom (opensText keyword) false text

/-- A closing phrase for the keyword occurs in a text. -/
def closingOccursIn (keyword text : Text) : Bool :=
  foundFrom (closesText keyword) false text

end Keyword
end FortranDocs
