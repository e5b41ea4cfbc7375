import FortranDocs.Program.Octets

/-!
# Sums in shell scripts

The value of an expression of whole numbers and the variables that hold them.
-/

namespace FortranDocs
namespace Shell
namespace Sum

/-- A number that a value spells; an empty value is zero. -/
def numberOf (value : Octets) : Int :=
  match value with
  | '-' :: digits => -(((Octets.toNat? digits).getD 0 : Nat) : Int)
  | digits => ((Octets.toNat? digits).getD 0 : Nat)

/-- Leave out blanks in front. -/
def skip (text : Octets) : Octets :=
  text.dropWhile Octets.isBlank

/-- Evaluate what an operator of some strength joins; the rest of the text follows
the value.  Strength 0 is that of sums, 1 that of products, and 2 that of single
operands. -/
def evaluate (lookup : Octets -> Octets) : (fuel : Nat) -> (strength : Nat) -> Octets ->
    Option (Int × Octets)
  | 0, _, _ => none
  | fuel + 1, 0, text =>
      (evaluate lookup fuel 1 text).bind fun (value, rest) => more fuel 0 value rest
  | fuel + 1, 1, text =>
      (evaluate lookup fuel 2 text).bind fun (value, rest) => more fuel 1 value rest
  | fuel + 1, _, text =>
      match skip text with
      | '-' :: rest => (evaluate lookup fuel 2 rest).map fun (value, rest) => (-value, rest)
      | '+' :: rest => evaluate lookup fuel 2 rest
      | '(' :: rest =>
          (evaluate lookup fuel 0 rest).bind fun (value, rest) =>
            match skip rest with
            | ')' :: rest => some (value, rest)
            | _ => none
      | operand =>
          let word := operand.takeWhile fun octet => octet.isAlphanum || octet == '_'
          let rest := operand.drop word.length
          if word.isEmpty then
            none
          else if word.all Char.isDigit then
            some (numberOf word, rest)
          else
            some (numberOf (lookup word), rest)
where
  /-- Join further operands to a value. -/
  more : (fuel : Nat) -> (strength : Nat) -> Int -> Octets -> Option (Int × Octets)
    | 0, _, _, _ => none
    | fuel + 1, strength, left, text =>
        let joined (rest : Octets) (join : Int -> Int -> Option Int) : Option (Int × Octets) :=
          (evaluate lookup fuel (strength + 1) rest).bind fun (right, rest) =>
            (join left right).bind fun value => more fuel strength value rest
        let divided (divide : Int -> Int -> Int) (left right : Int) : Option Int :=
          if right = 0 then none else some (divide left right)
        match strength, skip text with
        | 0, '+' :: rest => joined rest fun left right => some (left + right)
        | 0, '-' :: rest => joined rest fun left right => some (left - right)
        | 1, '*' :: rest => joined rest fun left right => some (left * right)
        | 1, '/' :: rest => joined rest (divided Int.tdiv)
        | 1, '%' :: rest => joined rest (divided Int.tmod)
        | _, rest => some (left, rest)

/-- The value of an expression. -/
def value? (lookup : Octets -> Octets) (text : Octets) : Option Int :=
  match evaluate lookup (4 * text.length + 4) 0 text with
  | some (value, rest) => if (skip rest).isEmpty then some value else none
  | none => none

/-- The digits of a value. -/
def show? (lookup : Octets -> Octets) (text : Octets) : Option Octets :=
  (value? lookup text).map fun value =>
    if value < 0 then '-' :: Octets.ofNat value.natAbs else Octets.ofNat value.natAbs

end Sum
end Shell
end FortranDocs
