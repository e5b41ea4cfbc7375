import FortranDocs.Program.Octets

/-!
# Printing programs

`echo` prints its arguments; `printf` prints them in a format.  The shell has
versions of both of its own, which treat backslashes differently: the escapes they
know are a parameter.
-/

namespace FortranDocs
namespace Printing

/-- Which escapes a program knows. -/
structure Escapes where
  /-- Whether `\x` and two hexadecimal digits stand for an octet, and `\"` for a
  quote. -/
  extended : Bool
  /-- Whether `\c` ends the output. -/
  ending : Bool

/-- The escapes of a stand-alone program. -/
def programEscapes : Escapes := { extended := true, ending := true }

/-- The escapes of the format of the shell's own `printf`. -/
def shellFormatEscapes : Escapes := { extended := false, ending := false }

/-- The escapes of the arguments of the shell's own `echo` and `printf`. -/
def shellEscapes : Escapes := { extended := false, ending := true }

/-- The value of a digit. -/
def digitValue (digit : Char) : Nat :=
  if digit.isDigit then
    digit.toNat - '0'.toNat
  else
    digit.toLower.toNat - 'a'.toNat + 10

/-- The number that digits spell in some base. -/
def valueOf (base : Nat) (digits : Octets) : Nat :=
  digits.foldl (fun value digit => base * value + digitValue digit) 0

/-- Whether a character is an octal digit. -/
def isOctal (character : Char) : Bool :=
  '0' ≤ character && character ≤ '7'

/-- Whether a character is a hexadecimal digit. -/
def isHexadecimal (character : Char) : Bool :=
  character.isDigit || ('a' ≤ character.toLower && character.toLower ≤ 'f')

/-- The octet that a single letter behind a backslash stands for. -/
def letterEscape? : Char -> Option Char
  | '\\' => some '\\'
  | 'a' => some '\x07'
  | 'b' => some '\x08'
  | 'e' => some '\x1b'
  | 'f' => some '\x0c'
  | 'n' => some '\n'
  | 'r' => some '\r'
  | 't' => some '\t'
  | 'v' => some '\x0b'
  | _ => none

/-- The octet that up to some number of octal digits spell, and what follows. -/
def octalEscape (most : Nat) (text : Octets) : Char × Octets :=
  let digits := (text.take most).takeWhile isOctal
  (Char.ofNat (valueOf 8 digits % 256), text.drop digits.length)

/-- What stands for a backslash and what follows it, and the rest; none if the
output ends here.  With `zeroFirst`, a zero in front of octal digits does not
count. -/
def escape (escapes : Escapes) (zeroFirst : Bool) (text : Octets) : Option (Octets × Octets) :=
  match text with
  | [] => some (['\\'], [])
  | character :: rest =>
      match letterEscape? character with
      | some octet => some ([octet], rest)
      | none =>
          if character = 'c' ∧ escapes.ending then
            none
          else if character = '"' ∧ escapes.extended then
            some (['"'], rest)
          else if character = 'x' ∧ escapes.extended ∧ rest.head?.any isHexadecimal then
            let digits := (rest.take 2).takeWhile isHexadecimal
            some ([Char.ofNat (valueOf 16 digits)], rest.drop digits.length)
          else if isOctal character then
            let (octet, rest) :=
              octalEscape 3 (if character = '0' ∧ zeroFirst then rest else text)
            some ([octet], rest)
          else
            some (['\\', character], rest)

/-- Whether output goes on behind some octets. -/
structure Passage where
  /-- The octets. -/
  octets : Octets
  /-- Whether the output ends behind them. -/
  ended : Bool

/-- Replace the escapes of a text, at most as many as its fuel allows. -/
def unescape (escapes : Escapes) : (fuel : Nat) -> Octets -> Passage
  | 0, text => { octets := text, ended := false }
  | _ + 1, [] => { octets := [], ended := false }
  | fuel + 1, '\\' :: rest =>
      match escape escapes true rest with
      | none => { octets := [], ended := true }
      | some (octets, rest) =>
          let passage := unescape escapes fuel rest
          { passage with octets := octets ++ passage.octets }
  | fuel + 1, octet :: rest =>
      let passage := unescape escapes fuel rest
      { passage with octets := octet :: passage.octets }

/-- Replace all escapes of a text. -/
def unescaped (escapes : Escapes) (text : Octets) : Passage :=
  unescape escapes text.length text

/-- Words with a space between neighbours. -/
def spaced (words : List Octets) : Octets :=
  Text.joinOn ' ' words

/-- Words on a line, with or without the line feed behind them. -/
def echoed (escapes : Option Escapes) (newline : Bool) (words : List Octets) : Octets :=
  let passage :=
    match escapes with
    | some escapes => unescaped escapes (spaced words)
    | none => { octets := spaced words, ended := false }
  if newline && !passage.ended then passage.octets ++ ['\n'] else passage.octets

/-- What the options of `echo` ask for. -/
structure EchoOptions where
  /-- Whether a line feed ends the output. -/
  newline : Bool := true
  /-- Whether escapes are replaced. -/
  escaped : Bool := false

/-- Take the options in front of the words of `echo`. -/
def echoOptions (options : EchoOptions) : List Octets -> EchoOptions × List Octets
  | [] => (options, [])
  | word :: rest =>
      match word with
      | '-' :: letter :: letters =>
          let all := letter :: letters
          if all.all fun each => each ∈ ['n', 'e', 'E'] then
            let options := all.foldl (fun options each =>
              match each with
              | 'n' => { options with newline := false }
              | 'e' => { options with escaped := true }
              | _ => { options with escaped := false }) options
            echoOptions options rest
          else
            (options, word :: rest)
      | _ => (options, word :: rest)

/-- The program `echo`. -/
def echo : Utility := fun _ arguments input =>
  let (options, words) := echoOptions {} arguments
  let escapes := if options.escaped then some programEscapes else none
  { output := echoed escapes options.newline words, rest := input }

/-- The shell's own `echo`. -/
def shellEcho : Utility := fun _ arguments input =>
  let output :=
    match arguments with
    | ['-', 'n'] :: words => echoed (some shellEscapes) false words
    | words => echoed (some shellEscapes) true words
  { output, rest := input }

/-- A number in a directive: given, or to be taken from the arguments. -/
inductive Measure
  | given (number : Nat)
  | asked
  deriving DecidableEq, Repr

/-- A piece of a format. -/
inductive Piece
  | plain (octets : Octets)
  | directive (flags : Octets) (width precision : Option Measure) (conversion : Char)
  | ending
  | fault
  deriving DecidableEq, Repr

/-- The conversions of a directive. -/
def conversions : Octets := ['s', 'b', 'c', 'd', 'i', 'o', 'u', 'x', 'X']

/-- Read a number or a star. -/
def readMeasure (text : Octets) : Option Measure × Octets :=
  match text with
  | '*' :: rest => (some .asked, rest)
  | _ =>
      let digits := text.takeWhile Char.isDigit
      if digits.isEmpty then
        (none, text)
      else
        (some (.given (valueOf 10 digits)), text.drop digits.length)

/-- Read a directive behind its percent sign. -/
def readDirective (text : Octets) : Piece × Octets :=
  let isFlag (character : Char) : Bool := character ∈ ['-', '+', ' ', '0', '#']
  let flags := text.takeWhile isFlag
  let (width, rest) := readMeasure (text.drop flags.length)
  let (precision, rest) :=
    match rest with
    | '.' :: rest =>
        let (precision, rest) := readMeasure rest
        (some (precision.getD (.given 0)), rest)
    | rest => (none, rest)
  match rest with
  | conversion :: rest =>
      if conversion ∈ conversions then
        (.directive flags width precision conversion, rest)
      else
        (.fault, rest)
  | [] => (.fault, [])

/-- The pieces of a format, at most as many as its fuel allows. -/
def readFormat (escapes : Escapes) : (fuel : Nat) -> Octets -> List Piece
  | 0, _ => []
  | _ + 1, [] => []
  | fuel + 1, '%' :: '%' :: rest => .plain ['%'] :: readFormat escapes fuel rest
  | fuel + 1, '%' :: rest =>
      let (piece, rest) := readDirective rest
      piece :: readFormat escapes fuel rest
  | fuel + 1, '\\' :: rest =>
      match escape escapes false rest with
      | none => [.ending]
      | some (octets, rest) => .plain octets :: readFormat escapes fuel rest
  | fuel + 1, octet :: rest => .plain [octet] :: readFormat escapes fuel rest

/-- A number that an argument spells, and whether all of the argument does. -/
def numberOf (argument : Octets) : Int × Bool :=
  match argument.dropWhile Octets.isBlank with
  | [] => (0, true)
  | '\'' :: octet :: _ => (octet.toNat, true)
  | '"' :: octet :: _ => (octet.toNat, true)
  | trimmed =>
      let negative := trimmed.head? = some '-'
      let unsigned :=
        if trimmed.head? = some '-' ∨ trimmed.head? = some '+' then trimmed.drop 1 else trimmed
      let (base, digits) :=
        match unsigned with
        | '0' :: 'x' :: rest => (16, rest.takeWhile isHexadecimal)
        | '0' :: rest => (8, '0' :: rest.takeWhile isOctal)
        | rest => (10, rest.takeWhile Char.isDigit)
      let length := if base = 16 then digits.length + 2 else digits.length
      let value : Int := valueOf base digits
      (if negative then -value else value, !digits.isEmpty && unsigned.length == length)

/-- How far the printing of a format has come. -/
structure Printer where
  /-- The arguments that are left. -/
  arguments : List Octets
  /-- What was printed. -/
  output : Octets := []
  /-- The exit code. -/
  code : Nat := 0
  /-- Whether the printing is over. -/
  ended : Bool := false

/-- Take an argument, if there is one left. -/
def Printer.next (printer : Printer) : Option Octets × Printer :=
  match printer.arguments with
  | [] => (none, printer)
  | argument :: rest => (some argument, { printer with arguments := rest })

/-- Take the number that a measure stands for. -/
def Printer.measure (printer : Printer) (measure : Option Measure) : Option Int × Printer :=
  match measure with
  | none => (none, printer)
  | some (.given number) => (some number, printer)
  | some .asked =>
      let (argument, printer) := printer.next
      (some (numberOf (argument.getD [])).1, printer)

/-- Print octets in a field. -/
def field (flags : Octets) (width : Option Int) (octets : Octets) : Octets :=
  let wanted := width.getD 0
  Octets.pad wanted.natAbs ' ' ('-' ∈ flags || wanted < 0) octets

/-- Print a number in a field. -/
def numberField
    (flags : Octets)
    (width precision : Option Int)
    (conversion : Char)
    (value : Int) :
    Octets :=
  let isSigned := conversion = 'd' ∨ conversion = 'i'
  let base := if conversion = 'o' then 8 else if conversion.toLower = 'x' then 16 else 10
  let magnitude :=
    if isSigned then value.natAbs
    else if value < 0 then 18446744073709551616 - value.natAbs
    else value.natAbs
  let digits := Nat.toDigits base magnitude
  let digits := if conversion = 'X' then digits.map Char.toUpper else digits
  let digits := if precision = some 0 ∧ magnitude = 0 then [] else digits
  let digits := Octets.pad (precision.getD 0).toNat '0' false digits
  let sign : Octets :=
    if isSigned then
      if value < 0 then ['-']
      else if '+' ∈ flags then ['+']
      else if ' ' ∈ flags then [' ']
      else []
    else if '#' ∈ flags ∧ magnitude ≠ 0 then
      if base = 16 then ['0', conversion] else if base = 8 then ['0'] else []
    else
      []
  let zeros := '0' ∈ flags ∧ '-' ∉ flags ∧ precision.isNone
  let digits :=
    if zeros then Octets.pad ((width.getD 0).toNat - sign.length) '0' false digits else digits
  field flags width (sign ++ digits)

/-- Print a piece of a format. -/
def Printer.print (escapes : Escapes) (printer : Printer) (piece : Piece) : Printer :=
  if printer.ended then
    printer
  else
    match piece with
    | .plain octets => { printer with output := printer.output ++ octets }
    | .ending => { printer with ended := true }
    | .fault => { printer with ended := true, code := 1 }
    | .directive flags width precision conversion =>
        let (width, printer) := printer.measure width
        let (precision, printer) := printer.measure precision
        let (argument, printer) := printer.next
        let argument := argument.getD []
        let cut (octets : Octets) : Octets :=
          match precision with
          | some (.ofNat most) => octets.take most
          | _ => octets
        match conversion with
        | 's' => { printer with output := printer.output ++ field flags width (cut argument) }
        | 'c' => { printer with output := printer.output ++ field flags width (argument.take 1) }
        | 'b' =>
            let passage := unescaped escapes argument
            { printer with
              output := printer.output ++ field flags width (cut passage.octets)
              ended := passage.ended }
        | _ =>
            let (value, isWhole) := numberOf argument
            { printer with
              output := printer.output ++ numberField flags width precision conversion value
              code := if isWhole then printer.code else 1 }

/-- Print a format over and over for all arguments, at most as often as its fuel
allows. -/
def Printer.printAll (escapes : Escapes) (pieces : List Piece) : (fuel : Nat) -> Printer -> Printer
  | 0, printer => printer
  | fuel + 1, printer =>
      let before := printer.arguments.length
      let printer := pieces.foldl (Printer.print escapes) printer
      if printer.ended || printer.arguments.isEmpty || printer.arguments.length == before then
        printer
      else
        Printer.printAll escapes pieces fuel printer

/-- Print arguments in a format.  The escapes of the format may differ from those of
the arguments. -/
def formatted
    (formatEscapes escapes : Escapes)
    (faultCode : Nat)
    (format : Octets)
    (arguments : List Octets) :
    Effect :=
  let pieces := readFormat formatEscapes format.length format
  let printer := Printer.printAll escapes pieces (arguments.length + 1) { arguments }
  let hasFault := pieces.contains .fault
  { code := if hasFault && printer.code == 1 then faultCode else printer.code
    output := printer.output }

/-- The operands behind a `--` that only ends the options. -/
def operands : List Octets -> List Octets
  | ['-', '-'] :: rest => rest
  | arguments => arguments

/-- The program `printf`. -/
def printf : Utility := fun _ arguments input =>
  match operands arguments with
  | [] => { code := 1, rest := input }
  | format :: arguments =>
      { formatted programEscapes programEscapes 1 format arguments with rest := input }

/-- The shell's own `printf`. -/
def shellPrintf : Utility := fun _ arguments input =>
  match operands arguments with
  | [] => { code := 2, rest := input }
  | format :: arguments =>
      { formatted shellFormatEscapes shellEscapes 2 format arguments with rest := input }

end Printing
end FortranDocs
