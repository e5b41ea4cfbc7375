import FortranDocs.Program.Shell.State
import FortranDocs.Program.Shell.Sum
import FortranDocs.Program.Shell.Wildcard

/-!
# Words and their fields

Before a command runs, each of its words is expanded into fields: variables are
replaced by their values, scripts by what they print, and what was not quoted is
split at blanks.
-/

namespace FortranDocs
namespace Shell

/-- Fields, the last of which may still grow. -/
structure Fields where
  /-- The fields that are complete. -/
  complete : List Octets := []
  /-- The field that may still grow. -/
  growing : Option Octets := none

namespace Fields

/-- Let the last field grow. -/
def grow (fields : Fields) (octets : Octets) : Fields :=
  { fields with growing := some (fields.growing.getD [] ++ octets) }

/-- Complete the last field. -/
def close (fields : Fields) : Fields :=
  { complete := fields.complete ++ fields.growing.toList, growing := none }

/-- Add octets that are split at blanks. -/
def split (fields : Fields) : Octets -> Fields
  | [] => fields
  | octet :: rest =>
      if octet = ' ' ∨ octet = '\t' ∨ octet = '\n' then
        split fields.close rest
      else
        split (fields.grow [octet]) rest

/-- Add octets that are fields of their own but for the first and the last one. -/
def add (fields : Fields) : List Octets -> Fields
  | [] => fields
  | [last] => fields.grow last
  | first :: rest => add (fields.grow first).close rest

/-- All fields. -/
def toList (fields : Fields) : List Octets :=
  fields.close.complete

end Fields

/-- The state of an expansion. -/
structure WordExpansion where
  /-- The state of the shell. -/
  state : State
  /-- The fields so far. -/
  fields : Fields := {}
  /-- How the expansion goes on. -/
  flow : Flow := .next

namespace WordExpansion

/-- Octets without line feeds at their end. -/
def withoutLineEnds (octets : Octets) : Octets :=
  (octets.reverse.dropWhile (· == '\n')).reverse

/-- What a job prints. -/
def printed (run : Runner) (job : Job) (state : State) : Octets × State × Flow :=
  match run job { state with output := [] } with
  | (inner, flow) =>
      (inner.output, { state.after inner with output := state.output }, flow.outside)

/-- Add a value to an expansion. -/
def addValue (expansion : WordExpansion) (quoted : Bool) (value : Octets) : WordExpansion :=
  { expansion with
    fields := if quoted then expansion.fields.grow value else expansion.fields.split value }

/-- Add what a job prints to an expansion. -/
def addPrinted (run : Runner) (expansion : WordExpansion) (quoted : Bool) (job : Job)
    (change : Octets -> Octets) : WordExpansion :=
  match printed run job expansion.state with
  | (octets, state, flow) =>
      { expansion with state, flow }.addValue quoted (change octets)

/-- The octets of a pattern, which are not quoted. -/
def patternOf (octets : Octets) : List Wildcard :=
  Wildcard.ofOctets octets.length (octets.map fun octet => (octet, false))

/-- Add the value of a variable to an expansion. -/
def addVariable
    (run : Runner)
    (expansion : WordExpansion)
    (name : Octets)
    (change : Change)
    (quoted : Bool) :
    WordExpansion :=
  let state := expansion.state
  let value := state.value? name
  let isMissing (ifEmpty : Bool) : Bool :=
    match value with
    | none => true
    | some octets => ifEmpty && octets.isEmpty
  let plain (expansion : WordExpansion) : WordExpansion :=
    if name = ['@'] ∨ (name = ['*'] ∧ !quoted) then
      if quoted then
        { expansion with fields := expansion.fields.add state.parameters }
      else
        { expansion with
          fields := state.parameters.foldl (fun fields parameter =>
            (fields.split parameter).close) expansion.fields }
    else
      expansion.addValue quoted (value.getD [])
  match change with
  | .none => plain expansion
  | .length => expansion.addValue quoted (Octets.ofNat (value.getD []).length)
  | .default ifEmpty word =>
      if isMissing ifEmpty then expansion.addPrinted run quoted (.text quoted word) id
      else plain expansion
  | .alternative ifEmpty word =>
      if isMissing ifEmpty then expansion.addValue quoted []
      else expansion.addPrinted run quoted (.text quoted word) id
  | .assign ifEmpty word =>
      if isMissing ifEmpty then
        match printed run (.text quoted word) state with
        | (octets, state, flow) =>
            { expansion with state := state.assign name octets, flow }.addValue quoted octets
      else
        plain expansion
  | .demand ifEmpty =>
      if isMissing ifEmpty then
        { expansion with state := { state with status := 2 }, flow := .exit }
      else
        plain expansion
  | .trimStart longest pattern =>
      match printed run (.text quoted pattern) state with
      | (pattern, state, flow) =>
          { expansion with state, flow }.addValue quoted
            (Wildcard.trimStart longest (patternOf pattern) (value.getD []))
  | .trimEnd longest pattern =>
      match printed run (.text quoted pattern) state with
      | (pattern, state, flow) =>
          { expansion with state, flow }.addValue quoted
            (Wildcard.trimEnd longest (patternOf pattern) (value.getD []))

/-- Add a part of a word to an expansion. -/
def addPart (run : Runner) (expansion : WordExpansion) (part : Part) : WordExpansion :=
  if expansion.flow ≠ .next then
    expansion
  else
    match part with
    | .plain octets _ => { expansion with fields := expansion.fields.grow octets }
    | .value name change quoted => expansion.addVariable run name change quoted
    | .output script quoted =>
        expansion.addPrinted run quoted (.lines (tokensOf script)) withoutLineEnds
    | .sum expression quoted =>
        match printed run (.text true expression) expansion.state with
        | (octets, state, flow) =>
            let lookup (name : Octets) : Octets := (state.value? name).getD []
            match Sum.show? lookup octets with
            | some digits => { expansion with state, flow }.addValue quoted digits
            | none => { expansion with state := { state with status := 2 }, flow := .exit }

/-- Whether a word holds only the quoted list of all parameters. -/
def isAllParameters (word : Word) : Bool :=
  let isShown (part : Part) : Bool :=
    match part with
    | .plain [] _ => false
    | _ => true
  word.filter isShown == [.value ['@'] .none true]

/-- Add a word to an expansion, as fields of their own.  The list of all parameters
is no field if there are none. -/
def addWord (run : Runner) (expansion : WordExpansion) (word : Word) : WordExpansion :=
  if isAllParameters word && expansion.state.parameters.isEmpty then
    expansion
  else
    let expansion := word.foldl (addPart run) expansion
    { expansion with fields := expansion.fields.close }

/-- Expand words into fields. -/
def ofWords (run : Runner) (state : State) (words : List Word) : WordExpansion :=
  words.foldl (addWord run) { state }

/-- Expand a word that stays one field. -/
def ofWord (run : Runner) (state : State) (word : Word) : Octets × State × Flow :=
  let whole (part : Part) : Part :=
    match part with
    | .plain octets _ => .plain octets true
    | .value ['@'] .none _ => .value ['*'] .none true
    | .value name change _ => .value name change true
    | .output script _ => .output script true
    | .sum expression _ => .sum expression true
  let expansion := (word.map whole).foldl (addPart run) { state }
  (expansion.fields.growing.getD [], expansion.state, expansion.flow)

/-- Expand a word into a pattern. -/
def patternOfWord (run : Runner) (state : State) (word : Word) :
    List Wildcard × State × Flow :=
  let marked := word.foldl (fun (marked, state, flow) part =>
    let quoted :=
      match part with
      | .plain _ quoted => quoted
      | .value _ _ quoted => quoted
      | .output _ quoted => quoted
      | .sum _ quoted => quoted
    match ofWord run state [part] with
    | (octets, state, inner) =>
        let octets := octets.map fun octet => (octet, quoted)
        (marked ++ octets, state, if flow = .next then inner else flow))
    (([] : List (Char × Bool)), state, Flow.next)
  (Wildcard.ofOctets marked.1.length marked.1, marked.2)

end WordExpansion
end Shell
end FortranDocs
