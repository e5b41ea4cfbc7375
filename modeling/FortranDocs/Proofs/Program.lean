import FortranDocs.Program.Launch
import FortranDocs.Proofs.Text.Utf8

/-!
# The command engine and the programs it calls

The command engine answers with what a program prints, without white space around it, whatever
launches the program: `Engine.answer_command_of_prints`.  The program `cat` prints what it reads,
`Program.launch_cat`, so with it the engine answers with the text of the construct.
-/

namespace FortranDocs

/-- The call by which the command engine asks a program about a construct. -/
def Request.call (request : Request) (program : Text) (arguments : List Text) : Call where
  program
  arguments
  environment := [(Engine.kindVariable, request.kind.keyword.toList)]
  input := Utf8.encode request.source

/-- The command engine answers with the text that a program prints. -/
theorem Engine.answer_command_of_prints
    {launch : Launcher}
    {program printed : Text}
    {arguments : List Text}
    {request : Request}
    (prints :
      launch (request.call program arguments) = .ended (.code 0) (Utf8.encode printed)) :
    ((command launch program arguments).answer request ()).1 = .ok (Text.trim printed) := by
  have answered : ((command launch program arguments).answer request ()).1 =
      answerOfCall program (launch (request.call program arguments)) := rfl
  rw [answered, prints]
  simp only [answerOfCall, Utf8.decode_encode]

namespace Octets

/-- Bytes are what their octets stand for. -/
theorem toBytes_ofBytes (bytes : List UInt8) : toBytes (ofBytes bytes) = bytes := by
  have back (byte : UInt8) : UInt8.ofNat (Char.ofNat byte.toNat).toNat = byte := by
    have valid : byte.toNat.isValidChar := .inl (Nat.lt_trans byte.toNat_lt (by decide))
    have number : (Char.ofNat byte.toNat).toNat = byte.toNat := by
      rw [Char.ofNat, dif_pos valid]
      rfl
    rw [number, UInt8.ofNat_toNat]
  rw [toBytes, ofBytes, List.map_map]
  exact List.map_id'' back bytes

/-- The lines of octets make up all of them. -/
theorem flatten_lines (octets : Octets) : (lines octets).flatten = octets := by
  induction octets with
  | nil => rfl
  | cons octet rest inductionHypothesis =>
      rw [lines]
      split
      · simp [inductionHypothesis]
      · cases behind : lines rest with
        | nil => simpa [behind] using inductionHypothesis
        | cons line others => simpa [behind] using inductionHypothesis

end Octets

namespace Filter

/-- A copy without changes. -/
def Copying.plain : Copying where
  numbered := false
  onlyFull := false
  squeezed := false
  endsShown := false
  tabsShown := false
  othersShown := false

theorem Copying.octet_plain (octet : Char) : plain.octet octet = [octet] := by
  unfold Copying.octet
  split
  · next equal => rw [equal]; rfl
  · split
    · next equal => rw [equal]; rfl
    · rfl

theorem Copying.lines_plain (number : Nat) (afterEmpty : Bool) (found : List Octets) :
    plain.lines number afterEmpty found = found.flatten := by
  induction found generalizing number afterEmpty with
  | nil => rfl
  | cons line rest inductionHypothesis =>
      have copied : line.flatMap plain.octet = line := by
        rw [funext octet_plain, List.flatMap_singleton']
      rw [lines, List.flatten_cons, ← inductionHypothesis number (line == ['\n']), copied]
      rfl

/-- The program `cat` copies its input. -/
theorem cat_nil (files : FileTree) (input : Octets) :
    cat files [] input = { output := input } := by
  have copied : cat files [] input =
      { output := Copying.plain.lines 0 false (Octets.lines (input ++ [])) } := rfl
  rw [copied, Copying.lines_plain, Octets.flatten_lines, List.append_nil]

end Filter

namespace Program

/-- The program `cat` prints what it reads. -/
theorem launch_cat
    (files : FileTree)
    (environment : List (String × Text))
    (input : List UInt8) :
    launch files { program := "cat".toList, arguments := [], environment, input } =
      .ended (.code 0) input := by
  let effect := Filter.cat files [] (Octets.ofBytes input)
  have launched :
      launch files { program := "cat".toList, arguments := [], environment, input } =
        .ended (.code effect.code) (Octets.toBytes effect.output) := rfl
  rw [launched]
  simp only [effect, Filter.cat_nil, Octets.toBytes_ofBytes]

/-- With the program `cat` the command engine answers with the text of the construct. -/
theorem answer_cat (files : FileTree) (request : Request) :
    ((Engine.command (launch files) "cat".toList []).answer request ()).1 =
      .ok (Text.trim request.source) :=
  Engine.answer_command_of_prints (launch_cat files _ _)

end Program
end FortranDocs
