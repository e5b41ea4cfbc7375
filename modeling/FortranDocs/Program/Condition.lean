import FortranDocs.Program.Octets

/-!
# Conditions

`test` ends with the code 0 if a condition on its arguments holds, with 1 if it
does not, and with 2 if the arguments are no condition.
-/

namespace FortranDocs
namespace Condition

/-- The number that an argument spells, with an optional sign. -/
def integer? (argument : Octets) : Option Int :=
  let trimmed := (argument.dropWhile Octets.isBlank).reverse.dropWhile Octets.isBlank |>.reverse
  match trimmed with
  | '-' :: digits => (Octets.toNat? digits).map fun number => -(number : Int)
  | '+' :: digits => (Octets.toNat? digits).map fun number => (number : Int)
  | digits => (Octets.toNat? digits).map fun number => (number : Int)

/-- Whether a condition on one operand holds; none if there is no such condition. -/
def unary? (files : FileTree) (operator operand : Octets) : Option Bool :=
  let path : Path := ⟨Octets.toText operand⟩
  match String.ofList operator with
  | "-n" => some !operand.isEmpty
  | "-z" => some operand.isEmpty
  | "-e" => some (files.find? path).isSome
  | "-f" => some (files.isFile path)
  | "-d" => some (files.isDirectory path)
  | "-r" => some (files.find? path).isSome
  | "-s" => some (match files.read path with
      | .ok content => !content.isEmpty
      | .error _ => files.isDirectory path)
  | "-t" => some false
  | _ => none

/-- What a comparison of two operands comes to: whether it holds, nothing if an
operand of it is no number, or none at all if there is no such comparison. -/
def binary? (operator left right : Octets) : Option (Option Bool) :=
  let compared (holds : Int -> Int -> Bool) : Option (Option Bool) :=
    match integer? left, integer? right with
    | some left, some right => some (some (holds left right))
    | _, _ => some none
  match String.ofList operator with
  | "=" => some (some (left == right))
  | "==" => none
  | "!=" => some (some (left != right))
  | "<" => some (some (decide (left < right)))
  | ">" => some (some (decide (right < left)))
  | "-eq" => compared fun left right => left == right
  | "-ne" => compared fun left right => left != right
  | "-lt" => compared fun left right => left < right
  | "-le" => compared fun left right => left ≤ right
  | "-gt" => compared fun left right => right < left
  | "-ge" => compared fun left right => right ≤ left
  | _ => none

/-- Whether the condition on at most four arguments holds; none if they are no
condition. -/
def simple (files : FileTree) (arguments : List Octets) : Option Bool :=
  match arguments with
  | [] => some false
  | [operand] => some !operand.isEmpty
  | [['!'], operand] => some operand.isEmpty
  | [operator, operand] => unary? files operator operand
  | [left, operator, right] =>
      match binary? operator left right with
      | some answer => answer
      | none =>
          if left = ['!'] then
            (unary? files operator right).map (!·)
          else if left = ['('] ∧ right = [')'] then
            some !operator.isEmpty
          else
            none
  | [['!'], left, operator, right] =>
      match binary? operator left right with
      | some answer => answer.map (!·)
      | none => none
  | _ => none

/-- Cut arguments at a word. -/
def cutAt (word : Octets) : List Octets -> List (List Octets)
  | [] => [[]]
  | argument :: rest =>
      match cutAt word rest with
      | [] => [[argument]]
      | group :: groups =>
          if argument = word then [] :: group :: groups else (argument :: group) :: groups

/-- Whether the condition on any arguments holds: `-a` joins conditions that all
have to hold, `-o` those of which one has to. -/
def holds (files : FileTree) (arguments : List Octets) : Option Bool :=
  if arguments.length ≤ 4 ∧ (simple files arguments).isSome then
    simple files arguments
  else
    let choices := cutAt "-o".toList arguments
    (choices.mapM fun choice =>
      ((cutAt "-a".toList choice).mapM (simple files)).map fun answers =>
        answers.all id).map fun answers => answers.any id

/-- The exit code for an answer. -/
def codeOf : Option Bool -> Nat
  | some true => 0
  | some false => 1
  | none => 2

/-- The program `test`. -/
def test : Utility := fun files arguments input =>
  { code := codeOf (holds files arguments), rest := input }

/-- The program `[`, whose last argument closes the condition. -/
def bracket : Utility := fun files arguments input =>
  if arguments.getLast? = some [']'] then
    test files arguments.dropLast input
  else
    { code := 2, rest := input }

/-- A program that only ends with some code. -/
def ended (code : Nat) : Utility := fun _ _ input =>
  { code, rest := input }

end Condition
end FortranDocs
