import FortranDocs.Text.WordRanges

/-!
# Word characters

A word is a maximal run of word characters.  The ASCII word characters are the
letters, the digits and the underscore; beyond ASCII the ranges of
`WordRanges.all` decide.
-/

namespace FortranDocs

/-- A character that belongs to a word. -/
def isWordCharacter (character : Char) : Bool :=
  if character.toNat < 0x80 then
    character.isAlphanum || character == '_'
  else
    WordRanges.all.any fun range =>
      range.1 ≤ character.toNat && character.toNat ≤ range.2

end FortranDocs
