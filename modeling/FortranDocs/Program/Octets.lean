import FortranDocs.Engine
import FortranDocs.FileTree

/-!
# Programs on bytes

The programs that the command engine calls work on bytes.  A byte sequence is
held as a text whose characters are the numbers of the bytes, so that a program
can be written with character literals.

A program reads some of its input, prints output and ends with a status.
-/

namespace FortranDocs

/-- A sequence of bytes, each as the character of the same number. -/
abbrev Octets := List Char

namespace Octets

/-- Bytes as octets. -/
def ofBytes (bytes : List UInt8) : Octets :=
  bytes.map fun byte => Char.ofNat byte.toNat

/-- Octets as bytes. -/
def toBytes (octets : Octets) : List UInt8 :=
  octets.map fun octet => UInt8.ofNat octet.toNat

/-- The octets in which a text is encoded. -/
def ofText (text : Text) : Octets :=
  ofBytes (Utf8.encode text)

/-- The text that octets encode; octets that encode none stand for themselves. -/
def toText (octets : Octets) : Text :=
  match Utf8.decode (toBytes octets) with
  | .ok text => text
  | .error _ => octets

/-- The digits of a number. -/
def ofNat (number : Nat) : Octets :=
  Nat.toDigits 10 number

/-- The number that decimal digits spell. -/
def toNat? (octets : Octets) : Option Nat :=
  if octets.isEmpty || !octets.all Char.isDigit then
    none
  else
    some (octets.foldl (fun number digit => 10 * number + (digit.toNat - '0'.toNat)) 0)

/-- A space, a tab or a line end. -/
def isBlank (octet : Char) : Bool :=
  octet == ' ' || (0x09 ≤ octet.toNat && octet.toNat ≤ 0x0D)

/-- Put a number of octets in front of or behind others to make them as long as
wanted. -/
def pad (width : Nat) (filler : Char) (behind : Bool) (octets : Octets) : Octets :=
  let missing := List.replicate (width - octets.length) filler
  if behind then octets ++ missing else missing ++ octets

/-- The lines of octets, each with the line feed that ends it. -/
def lines : Octets -> List Octets
  | [] => []
  | octet :: rest =>
      if octet = '\n' then
        [octet] :: lines rest
      else
        match lines rest with
        | [] => [[octet]]
        | line :: others => (octet :: line) :: others

end Octets

/-- What the run of a program comes to. -/
structure Effect where
  /-- The exit code. -/
  code : Nat := 0
  /-- What was printed. -/
  output : Octets := []
  /-- The input that was not read. -/
  rest : Octets := []
  deriving DecidableEq, Repr

/-- A program without a script: what it does with its arguments and its input,
among some files. -/
abbrev Utility := FileTree -> List Octets -> Octets -> Effect

end FortranDocs
