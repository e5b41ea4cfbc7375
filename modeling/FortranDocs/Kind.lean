import FortranDocs.Keyword
import FortranDocs.Line

/-!
# Kinds of blocks

The five named blocks of a source, the lines that open them and the lines that
close them.
-/

namespace FortranDocs

/-- A kind of named block. -/
inductive Kind
  | program
  | module
  | function
  | subroutine
  | type
  deriving DecidableEq, Repr

namespace Kind

/-- All kinds, in the order in which a line is tested for them. -/
def all : List Kind :=
  [program, module, function, subroutine, type]

/-- The word that opens a block of this kind and follows `end` in its closing
line. -/
def keyword : Kind -> String
  | program => "program"
  | module => "module"
  | function => "function"
  | subroutine => "subroutine"
  | type => "type"

/-- The kind with a given keyword. -/
def ofKeyword? (word : String) : Option Kind :=
  all.find? fun kind => kind.keyword == word

/-- The declaration part of a line of code: what stands in front of the first
comma or colon. -/
def declarationPart (code : Line) : Line :=
  code.takeWhile fun character => character != ',' && character != ':'

/-- Whether a line opens a block of this kind.  A type definition needs its
keyword in the declaration part, and no parenthesis there: `type(point) :: p`
declares a variable. -/
def opens (kind : Kind) (line : Line) : Bool :=
  match kind with
  | .type =>
      let declaration := declarationPart line.code
      Keyword.occursIn kind.keyword.toList declaration &&
        declaration.all fun character => character != '(' && character != ')'
  | _ => Keyword.occursIn kind.keyword.toList line.code

/-- Whether a line closes a block of this kind. -/
def closes (kind : Kind) (line : Line) : Bool :=
  Keyword.closingOccursIn kind.keyword.toList line.code

/-- The first kind that a line opens. -/
def openedBy (line : Line) : Option Kind :=
  all.find? fun kind => kind.opens line

end Kind
end FortranDocs
