import FortranDocs.Program.Octets

/-!
# Wildcards of shell scripts

A wildcard pattern describes octets: a star any number of them, a question mark any
one, a bracket one out of a set.  What was quoted in the script describes only
itself.
-/

namespace FortranDocs
namespace Shell

/-- A part of a wildcard pattern. -/
inductive Wildcard
  | literal (octet : Char)
  | any
  | many
  | set (isNegated : Bool) (ranges : List (Char × Char))
  deriving DecidableEq, Repr

namespace Wildcard

/-- The ranges in the inside of a bracket. -/
def rangesOf : (fuel : Nat) -> Octets -> List (Char × Char)
  | 0, _ => []
  | _ + 1, [] => []
  | fuel + 1, first :: '-' :: last :: rest => (first, last) :: rangesOf fuel rest
  | fuel + 1, octet :: rest => (octet, octet) :: rangesOf fuel rest

/-- The pattern that octets spell, each with the mark whether it was quoted. -/
def ofOctets : (fuel : Nat) -> List (Char × Bool) -> List Wildcard
  | 0, _ => []
  | _ + 1, [] => []
  | fuel + 1, ('*', false) :: rest => .many :: ofOctets fuel rest
  | fuel + 1, ('?', false) :: rest => .any :: ofOctets fuel rest
  | fuel + 1, ('[', false) :: rest =>
      let (isNegated, inner) :=
        match rest with
        | ('!', _) :: inner => (true, inner)
        | inner => (false, inner)
      let front := inner.take 1
      let more := (inner.drop 1).takeWhile fun (octet, _) => octet != ']'
      match (inner.drop 1).drop more.length with
      | _ :: following =>
          let inside := (front ++ more).map Prod.fst
          .set isNegated (rangesOf inside.length inside) :: ofOctets fuel following
      | [] => .literal '[' :: ofOctets fuel rest
  | fuel + 1, (octet, _) :: rest => .literal octet :: ofOctets fuel rest

/-- The octets behind any number of leading ones. -/
def tails : Octets -> List Octets
  | [] => [[]]
  | octet :: rest => (octet :: rest) :: tails rest

/-- Whether a pattern describes octets. -/
def describes : List Wildcard -> Octets -> Bool
  | [], octets => octets.isEmpty
  | .many :: pattern, octets => (tails octets).any (describes pattern)
  | .any :: pattern, _ :: rest => describes pattern rest
  | .literal octet :: pattern, first :: rest => octet == first && describes pattern rest
  | .set isNegated ranges :: pattern, first :: rest =>
      let isMember := ranges.any fun (low, high) => low ≤ first && first ≤ high
      (isMember != isNegated) && describes pattern rest
  | _, [] => false

/-- Octets without a front part that a pattern describes, the longest or the
shortest one. -/
def trimStart (longest : Bool) (pattern : List Wildcard) (octets : Octets) : Octets :=
  let lengths := (List.range (octets.length + 1)).filter fun length =>
    describes pattern (octets.take length)
  match if longest then lengths.getLast? else lengths.head? with
  | some length => octets.drop length
  | none => octets

/-- Octets without a part at their end that a pattern describes, the longest or the
shortest one. -/
def trimEnd (longest : Bool) (pattern : List Wildcard) (octets : Octets) : Octets :=
  let lengths := (List.range (octets.length + 1)).filter fun length =>
    describes pattern (octets.drop length)
  match if longest then lengths.head? else lengths.getLast? with
  | some length => octets.take length
  | none => octets

end Wildcard
end Shell
end FortranDocs
