import FortranDocs.Program.Octets

/-!
# Filters

Programs that copy their input, or files, with some change: `cat` copies all of it,
`head` its beginning, `tr` replaces single octets, and `wc` counts.
-/

namespace FortranDocs
namespace Filter

/-- What can be read from an operand: the input, nothing, or a file.  What is left
of the input comes with it. -/
def readOperand (files : FileTree) (operand input : Octets) : Option Octets × Octets :=
  if operand = ['-'] then
    (some input, [])
  else if operand = "/dev/null".toList then
    (some [], input)
  else
    match files.read ⟨Octets.toText operand⟩ with
    | .ok content => (some (Octets.ofBytes content), input)
    | .error _ => (none, input)

/-- What can be read from operands, from the input if there are none. -/
def readOperands (files : FileTree) (operands : List Octets) (input : Octets) :
    List (Option Octets) × Octets :=
  match operands with
  | [] => ([some input], [])
  | _ =>
      operands.foldl (fun (contents, input) operand =>
        let (content, input) := readOperand files operand input
        (contents ++ [content], input)) ([], input)

/-- The exit code of a program whose operands came to some contents. -/
def codeOf (contents : List (Option Octets)) : Nat :=
  if contents.all Option.isSome then 0 else 1

/-- Split arguments into the letters of options and the operands. -/
def letters : List Octets -> Octets × List Octets
  | [] => ([], [])
  | argument :: rest =>
      match argument with
      | ['-', '-'] => ([], rest)
      | '-' :: letter :: more =>
          let (found, operands) := letters rest
          (letter :: more ++ found, operands)
      | _ =>
          let (found, operands) := letters rest
          (found, argument :: operands)

/-- An octet in characters that can be seen. -/
def visible (octet : Char) : Octets :=
  let code := octet.toNat
  let shown (code : Nat) : Octets :=
    if code < 32 then ['^', Char.ofNat (code + 64)]
    else if code = 127 then ['^', '?']
    else [Char.ofNat code]
  if code < 128 then shown code else 'M' :: '-' :: shown (code - 128)

/-- How `cat` changes what it copies. -/
structure Copying where
  /-- Whether lines are numbered. -/
  numbered : Bool
  /-- Whether empty lines go without a number. -/
  onlyFull : Bool
  /-- Whether repeated empty lines are left out. -/
  squeezed : Bool
  /-- Whether line ends are shown. -/
  endsShown : Bool
  /-- Whether tabs are shown. -/
  tabsShown : Bool
  /-- Whether other octets are shown. -/
  othersShown : Bool

/-- The changes that the options of `cat` ask for; none if one is not known. -/
def Copying.ofLetters? (found : Octets) : Option Copying :=
  let has (letter : Char) : Bool := found.contains letter
  if found.all fun letter => letter ∈ ['A', 'b', 'e', 'E', 'n', 's', 't', 'T', 'u', 'v'] then
    some {
      numbered := has 'n' || has 'b'
      onlyFull := has 'b'
      squeezed := has 's'
      endsShown := has 'E' || has 'A' || has 'e'
      tabsShown := has 'T' || has 'A' || has 't'
      othersShown := has 'v' || has 'A' || has 'e' || has 't' }
  else
    none

/-- An octet as it is copied. -/
def Copying.octet (copying : Copying) (octet : Char) : Octets :=
  if octet = '\n' then
    if copying.endsShown then ['$', '\n'] else ['\n']
  else if octet = '\t' then
    if copying.tabsShown then ['^', 'I'] else ['\t']
  else if copying.othersShown then
    visible octet
  else
    [octet]

/-- Lines as they are copied, behind a number of numbered lines. -/
def Copying.lines (copying : Copying) (number : Nat) (afterEmpty : Bool) :
    List Octets -> Octets
  | [] => []
  | line :: rest =>
      let isEmpty := line == ['\n']
      if copying.squeezed && isEmpty && afterEmpty then
        copying.lines number true rest
      else
        let hasNumber := copying.numbered && !(copying.onlyFull && isEmpty)
        let number := if hasNumber then number + 1 else number
        let label :=
          if hasNumber then Octets.pad 6 ' ' false (Octets.ofNat number) ++ ['\t'] else []
        label ++ line.flatMap copying.octet ++ copying.lines number isEmpty rest

/-- The program `cat`. -/
def cat : Utility := fun files arguments input =>
  let (found, operands) := letters arguments
  match Copying.ofLetters? found with
  | none => { code := 1, rest := input }
  | some copying =>
      let (contents, rest) := readOperands files operands input
      let content := contents.flatMap (Option.getD · [])
      { code := codeOf contents
        output := copying.lines 0 false (Octets.lines content)
        rest }

/-- How much `head` copies. -/
structure Extent where
  /-- Whether octets are counted, and not lines. -/
  octets : Bool := false
  /-- The number that is counted to. -/
  count : Nat := 10
  /-- Whether the number is left out at the end. -/
  fromEnd : Bool := false
  deriving DecidableEq, Repr

/-- The number of a count option. -/
def Extent.ofCount? (octets : Bool) (text : Octets) : Option Extent :=
  match text with
  | '-' :: digits =>
      (Octets.toNat? digits).map fun count => { octets, count, fromEnd := true }
  | '+' :: digits => (Octets.toNat? digits).map fun count => { octets, count }
  | digits => (Octets.toNat? digits).map fun count => { octets, count }

/-- The extent in an argument that holds both its option and the number. -/
def Extent.ofArgument? (argument : Octets) : Option Extent :=
  match argument with
  | '-' :: '-' :: name =>
      if name.take 6 = "lines=".toList then ofCount? false (name.drop 6)
      else if name.take 6 = "bytes=".toList then ofCount? true (name.drop 6)
      else none
  | '-' :: 'n' :: value => ofCount? false value
  | '-' :: 'c' :: value => ofCount? true value
  | '-' :: value => ofCount? false value
  | _ => none

/-- What the arguments of `head` ask for: how much, and of which operands. -/
def headOptions (extent : Extent) : List Octets -> Option (Extent × List Octets)
  | [] => some (extent, [])
  | ['-', '-'] :: rest => some (extent, rest)
  | ['-', 'q'] :: rest => headOptions extent rest
  | ['-', 'n'] :: value :: rest =>
      (Extent.ofCount? false value).bind fun extent => headOptions extent rest
  | ['-', 'c'] :: value :: rest =>
      (Extent.ofCount? true value).bind fun extent => headOptions extent rest
  | argument :: rest =>
      match argument with
      | '-' :: _ :: _ =>
          (Extent.ofArgument? argument).bind fun extent => headOptions extent rest
      | operand =>
          (headOptions extent rest).map fun (extent, operands) =>
            (extent, operand :: operands)

/-- The part of a content that an extent describes. -/
def Extent.part (extent : Extent) (content : Octets) : Octets :=
  if extent.octets then
    if extent.fromEnd then content.take (content.length - extent.count)
    else content.take extent.count
  else
    let lines := Octets.lines content
    if extent.fromEnd then (lines.take (lines.length - extent.count)).flatten
    else (lines.take extent.count).flatten

/-- The size of the blocks in which lines are looked for. -/
def blockSize : Nat := 8192

/-- How much of the input is read to copy a part of it: octets are read one by one
and lines in whole blocks. -/
def Extent.used (extent : Extent) (content : Octets) : Nat :=
  if extent.fromEnd then
    content.length
  else if extent.octets then
    extent.count
  else if extent.count = 0 then
    0
  else
    let length := (extent.part content).length
    (length + blockSize - 1) / blockSize * blockSize

/-- The beginnings of contents, each below the name of its operand. -/
def labelled (extent : Extent) : List (Octets × Option Octets) -> List Octets
  | [] => []
  | (_, none) :: rest => labelled extent rest
  | (operand, some content) :: rest =>
      let name := if operand = ['-'] then "standard input".toList else operand
      ("==> ".toList ++ name ++ " <==\n".toList ++ extent.part content) :: labelled extent rest

/-- The program `head`. -/
def head : Utility := fun files arguments input =>
  match headOptions {} arguments with
  | none => { code := 1, rest := input }
  | some (extent, operands) =>
      let (contents, rest) := readOperands files operands input
      let rest := if rest.isEmpty then input.drop (extent.used input) else rest
      let output :=
        match operands, contents with
        | _ :: _ :: _, _ => Text.joinOn '\n' (labelled extent (operands.zip contents))
        | _, _ => contents.flatMap fun content => extent.part (content.getD [])
      { code := codeOf contents, output, rest }

/-- The octets of a class. -/
def classOf? (name : Octets) : Option Octets :=
  let holds : Option (Char -> Bool) :=
    match String.ofList name with
    | "alnum" => some Char.isAlphanum
    | "alpha" => some Char.isAlpha
    | "blank" => some fun octet => octet == ' ' || octet == '\t'
    | "cntrl" => some fun octet => octet.toNat < 32 || octet.toNat == 127
    | "digit" => some Char.isDigit
    | "graph" => some fun octet => 32 < octet.toNat && octet.toNat < 127
    | "lower" => some Char.isLower
    | "print" => some fun octet => 32 ≤ octet.toNat && octet.toNat < 127
    | "punct" => some fun octet =>
        32 < octet.toNat && octet.toNat < 127 && !octet.isAlphanum
    | "space" => some Octets.isBlank
    | "upper" => some Char.isUpper
    | "xdigit" => some fun octet =>
        octet.isDigit || ('a' ≤ octet.toLower && octet.toLower ≤ 'f')
    | _ => none
  holds.map fun holds => ((List.range 256).map Char.ofNat).filter holds

/-- The octets of a set without its escapes, each with the mark whether it was
escaped. -/
def setOctets : (fuel : Nat) -> Octets -> List (Char × Bool)
  | 0, _ => []
  | _ + 1, [] => []
  | _ + 1, ['\\'] => [('\\', true)]
  | fuel + 1, '\\' :: octet :: rest =>
      let digits := ((octet :: rest).take 3).takeWhile fun each => '0' ≤ each && each ≤ '7'
      if digits.isEmpty then
        let meant :=
          match octet with
          | 'a' => '\x07'
          | 'b' => '\x08'
          | 'f' => '\x0c'
          | 'n' => '\n'
          | 'r' => '\r'
          | 't' => '\t'
          | 'v' => '\x0b'
          | other => other
        (meant, true) :: setOctets fuel rest
      else
        let value := digits.foldl (fun value digit => 8 * value + (digit.toNat - '0'.toNat)) 0
        (Char.ofNat (value % 256), true) ::
          setOctets fuel ((octet :: rest).drop digits.length)
  | fuel + 1, octet :: rest => (octet, false) :: setOctets fuel rest

/-- The members of a set in order; none if the set is faulty. -/
def members : (fuel : Nat) -> List (Char × Bool) -> Option Octets
  | 0, _ => some []
  | _ + 1, [] => some []
  | fuel + 1, ('[', false) :: (':', false) :: rest =>
      let name := (rest.map Prod.fst).takeWhile (· != ':')
      match classOf? name, rest.drop name.length with
      | some octets, (':', false) :: (']', false) :: rest =>
          (members fuel rest).map (octets ++ ·)
      | _, _ => none
  | fuel + 1, (first, _) :: ('-', false) :: (last, _) :: rest =>
      if last < first then
        none
      else
        let range := (List.range (last.toNat - first.toNat + 1)).map fun step =>
          Char.ofNat (first.toNat + step)
        (members fuel rest).map (range ++ ·)
  | fuel + 1, (octet, _) :: rest => (members fuel rest).map (octet :: ·)

/-- The members of the set that a text describes. -/
def setOf? (text : Octets) : Option Octets :=
  members (text.length + 1) (setOctets text.length text)

/-- Leave out each octet of a set that repeats the one in front. -/
def squeeze (set : Octets) : Octets -> Octets
  | [] => []
  | octet :: rest => octet :: go octet rest
where
  /-- Leave out repeats behind an octet. -/
  go (previous : Char) : Octets -> Octets
    | [] => []
    | octet :: rest =>
        if octet = previous ∧ octet ∈ set then go previous rest else octet :: go octet rest

/-- Replace the members of a set by the members of another one at the same places.
The last one stands in for the missing ones. -/
def substitute (source target : Octets) (octet : Char) : Char :=
  let index := source.length - 1 - source.reverse.findIdx (· == octet)
  if octet ∈ source then (target[index]?).getD (target.getLast?.getD octet) else octet

/-- All octets outside a set. -/
def complement (set : Octets) : Octets :=
  ((List.range 256).map Char.ofNat).filter fun octet => !set.contains octet

/-- What `tr` makes of its input with some options and the texts of its sets. -/
def transliterated (found : Octets) (sets : List Octets) (input : Octets) : Option Octets :=
  let has (letter : Char) : Bool := found.contains letter
  let complemented := has 'c' || has 'C'
  match sets.mapM setOf? with
  | none => none
  | some [] => none
  | some (first :: others) =>
      let first := if complemented then complement first else first
      match has 'd', has 's', others with
      | true, false, [] => some (input.filter fun octet => !first.contains octet)
      | true, true, [second] =>
          some (squeeze second (input.filter fun octet => !first.contains octet))
      | false, true, [] => some (squeeze first input)
      | false, squeezed, [second] =>
          if second.isEmpty && !has 't' then
            none
          else
            let first := if has 't' then first.take second.length else first
            let output := input.map (substitute first second)
            some (if squeezed then squeeze second output else output)
      | _, _, _ => none

/-- Split the arguments of `tr` into the letters of its options and its sets. -/
def transliterationOptions : List Octets -> Octets × List Octets
  | [] => ([], [])
  | argument :: rest =>
      match argument with
      | ['-', '-'] => ([], rest)
      | '-' :: letter :: more =>
          let (found, sets) := transliterationOptions rest
          (letter :: more ++ found, sets)
      | _ => ([], argument :: rest)

/-- The program `tr`. -/
def tr : Utility := fun _ arguments input =>
  let (found, sets) := transliterationOptions arguments
  let isKnown := found.all fun letter => letter ∈ ['c', 'C', 'd', 's', 't']
  match transliterated found sets input with
  | some output => if isKnown then { output } else { code := 1, rest := input }
  | none => { code := 1, rest := input }

/-- The numbers that `wc` counts. -/
structure Counts where
  /-- The number of line feeds. -/
  lines : Nat := 0
  /-- The number of words. -/
  words : Nat := 0
  /-- The number of octets. -/
  octets : Nat := 0
  /-- The length of the longest line. -/
  longest : Nat := 0
  deriving DecidableEq, Repr

/-- The number of words behind an octet that was a blank or was not. -/
def wordCount (afterBlank : Bool) : Octets -> Nat
  | [] => 0
  | octet :: rest =>
      if Octets.isBlank octet then wordCount true rest
      else (if afterBlank then 1 else 0) + wordCount false rest

/-- The width of a line on a screen with a tab at every eighth place. -/
def lineWidth (line : Octets) : Nat :=
  line.foldl (fun width octet =>
    if octet = '\t' then width + (8 - width % 8)
    else if 32 ≤ octet.toNat ∧ octet.toNat < 127 then width + 1
    else width) 0

/-- The counts of a content. -/
def Counts.of (content : Octets) : Counts :=
  { lines := content.count '\n'
    words := wordCount true content
    octets := content.length
    longest := (Octets.lines content).foldl (fun longest line =>
      max longest (lineWidth line)) 0 }

/-- The counts of two contents together. -/
def Counts.add (left right : Counts) : Counts :=
  { lines := left.lines + right.lines
    words := left.words + right.words
    octets := left.octets + right.octets
    longest := max left.longest right.longest }

/-- Which numbers `wc` prints. -/
structure Counted where
  /-- Whether line feeds are counted. -/
  lines : Bool
  /-- Whether words are counted. -/
  words : Bool
  /-- Whether characters are counted. -/
  characters : Bool
  /-- Whether octets are counted. -/
  octets : Bool
  /-- Whether the longest line is looked for. -/
  longest : Bool

/-- The letter of an option of `wc` with a long name. -/
def countLetter? (name : Octets) : Option Char :=
  match String.ofList name with
  | "lines" => some 'l'
  | "words" => some 'w'
  | "chars" => some 'm'
  | "bytes" => some 'c'
  | "max-line-length" => some 'L'
  | _ => none

/-- The letters of the options of `wc`, long names included. -/
def countLetters (arguments : List Octets) : List Octets :=
  arguments.map fun argument =>
    match argument with
    | '-' :: '-' :: name =>
        match countLetter? name with
        | some letter => ['-', letter]
        | none => argument
    | _ => argument

/-- What some letters of options ask for; none if one is not known. -/
def Counted.ofLetters? (found : Octets) : Option Counted :=
  let has (letter : Char) : Bool := found.contains letter
  if found.isEmpty then
    some { lines := true, words := true, characters := false, octets := true, longest := false }
  else if found.all fun letter => letter ∈ ['l', 'w', 'm', 'c', 'L'] then
    some { lines := has 'l', words := has 'w', characters := has 'm', octets := has 'c'
           longest := has 'L' }
  else
    none

/-- The numbers that are asked for, in the order in which they are printed. -/
def Counted.numbers (counted : Counted) (counts : Counts) : List Nat :=
  let listed (isAsked : Bool) (number : Nat) : List Nat := if isAsked then [number] else []
  listed counted.lines counts.lines ++ listed counted.words counts.words ++
    listed counted.characters counts.octets ++ listed counted.octets counts.octets ++
    listed counted.longest counts.longest

/-- The width of the numbers: as many digits as the sizes of the operands have, but
seven if some of them is no file.  A single number is not padded. -/
def Counted.width (counted : Counted) (operands : List Octets) (total : Counts) : Nat :=
  if operands.length ≤ 1 ∧ (counted.numbers total).length = 1 then
    1
  else
    let digits := (Octets.ofNat total.octets).length
    if operands.isEmpty || operands.any (fun operand => operand == ['-'] || operand == "/dev/null".toList) then
      max 7 digits
    else
      digits

/-- A line of numbers, with the operand they belong to. -/
def Counted.line (counted : Counted) (width : Nat) (counts : Counts) (label : Option Octets) :
    Octets :=
  let numbers := (counted.numbers counts).map fun number =>
    Octets.pad width ' ' false (Octets.ofNat number)
  Text.joinOn ' ' (numbers ++ label.toList) ++ ['\n']

/-- The program `wc`. -/
def wc : Utility := fun files arguments input =>
  let (found, operands) := letters (countLetters arguments)
  match Counted.ofLetters? found with
  | none => { code := 1, rest := input }
  | some counted =>
      let (contents, rest) := readOperands files operands input
      let counts := contents.map fun content => content.map Counts.of
      let total := (counts.filterMap id).foldl Counts.add {}
      let width := counted.width operands total
      let labels := if operands.isEmpty then [none] else operands.map some
      let lines := (counts.zip labels).flatMap fun (counts, label) =>
        match counts with
        | some counts => counted.line width counts label
        | none => []
      let summary :=
        if 1 < operands.length then counted.line width total (some "total".toList) else []
      { code := codeOf contents, output := lines ++ summary, rest }

end Filter
end FortranDocs
