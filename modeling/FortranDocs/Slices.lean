import FortranDocs.Split

/-!
# Lines cut by indices

A machine cuts lines around a block at two indices: that of the line at which the block
starts and that of the first line behind it that closes the kind.  It counts lines in
words of some width, so that the line behind the last index has none.

`Slices.around?` gives nothing where the machine stops: where an index lies outside of
the lines, a difference is negative, or a sum is no word in a machine that checks its
sums.
-/

namespace FortranDocs

/-- Lines in three parts. -/
structure Slices where
  /-- The lines in front of a block. -/
  before : List Line
  /-- The lines of the block. -/
  block : List Line
  /-- The lines behind the block. -/
  after : List Line
  deriving DecidableEq, Repr

/-- What a machine does with a sum that is no word. -/
inductive Overflow
  /-- It stops. -/
  | stops
  /-- It drops the carry. -/
  | wraps
  deriving DecidableEq, Repr

namespace Overflow

/-- The word behind a word, if the machine goes on. -/
def next? {width : Nat} (overflow : Overflow) (word : BitVec width) : Option (BitVec width) :=
  if overflow = .stops ∧ word = .allOnes width then none else some (word + 1)

end Overflow

namespace Slices

/-- The index of the first line that closes a kind, from a given index on. -/
def closingIndex? (kind : Kind) (first : Nat) (lines : List Line) : Option Nat :=
  ((lines.zipIdx.drop first).find? fun numbered => kind.closes numbered.1).map Prod.snd

/-- Lines cut in front of an index, which may not be larger than their number. -/
def cutAt? (index : Nat) (lines : List Line) : Option (List Line × List Line) :=
  if index ≤ lines.length then some (lines.splitAt index) else none

/-- The difference of two numbers, of which the second may not be the larger one. -/
def difference? (left right : Nat) : Option Nat :=
  if right ≤ left then some (left - right) else none

/-- Lines cut in front of the line at one index and behind the line at another one. -/
def between? (start closing : Nat) (lines : List Line) : Option Slices := do
  let (before, rest) ← cutAt? start lines
  let distance ← difference? closing start
  let (block, after) ← cutAt? (distance + 1) rest
  return { before, block, after }

/-- Lines cut around the block that starts at a given index, whether or not the line
there opens one.  The opening line is never its own closing line. -/
def around?
    {width : Nat}
    (overflow : Overflow)
    (kind : Kind)
    (start : BitVec width)
    (lines : List Line) :
    Option (Except ParseError Slices) := do
  let next ← overflow.next? start
  match closingIndex? kind next.toNat lines with
  | none => return .error (.endNotFound kind next.toNat)
  | some closing => return .ok (← between? start.toNat closing lines)

end Slices
end FortranDocs
