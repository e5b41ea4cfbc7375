import FortranDocs.Proofs.FileTree.Search
import FortranDocs.Proofs.Inputs.Listing
import FortranDocs.Proofs.Inputs.Placement
import FortranDocs.Run.Files
import Mathlib

/-!
# Inputs and their outputs

Below an output directory an input is written to its place behind that directory.  The place of
a named file, and that of a file of a directory, is made of names, so the output lies below the
output directory.  So it does for the matches of a pattern unless they lead up behind the fixed
part of the pattern, `Expansion.relative_isPlain_iff`, which takes a piece that may lead up
there.  With such a piece the output may be written over the input, as `climbingTree` shows.
-/

namespace FortranDocs

/-! ## Places that are made of names -/

namespace Pattern

variable {text : Text} {path : Path} {rest : List Component}

/-- Whether a match leads up behind the fixed part of its pattern. -/
def Climbs (text : Text) (path : Path) : Prop :=
  ∃ rest, path.components = (fixedPart text).components ++ rest ∧ .parent ∈ rest

theorem Placed.climbs_iff (placed : Placed text path rest) :
    Climbs text path ↔ ¬ LosesDot text path ∧ .parent ∈ rest := by
  have behind := placed.behind
  constructor
  · rintro ⟨other, follows, up⟩
    have kept := not_losesDot_of_isPrefix ⟨other, follows.symm⟩
    rw [frontOf, if_neg kept, follows] at behind
    exact ⟨kept, List.append_cancel_left behind ▸ up⟩
  · rintro ⟨kept, up⟩
    rw [frontOf, if_neg kept] at behind
    exact ⟨rest, behind, up⟩

theorem Placed.isPlain_iff
    {name : Text}
    (placed : Placed text path rest)
    (named : path.fileName? = some name) :
    (SourceFile.under (fixedPart text) path).relative.IsPlain ↔ ¬ Climbs text path := by
  rw [placed.climbs_iff, Path.IsPlain, placed.components_relative named]
  split
  · next bare =>
      refine iff_of_true ⟨List.cons_ne_nil _ _, by simp [Component.isName]⟩ fun climbing => ?_
      rcases bare with lost | nothing
      · exact climbing.1 lost
      · simp [nothing] at climbing
  · next kept =>
      obtain ⟨kept, nonempty⟩ := not_or.mp kept
      constructor
      · exact fun plain climbing => plain.not_parent_mem climbing.2
      · intro level
        exact ⟨nonempty, placed.names.resolve_left fun up => level ⟨kept, up⟩⟩

theorem Placed.parent_mem
    {name : Text}
    (placed : Placed text path rest)
    (named : path.fileName? = some name)
    (climbs : Climbs text path) :
    .parent ∈ (SourceFile.under (fixedPart text) path).relative.components := by
  obtain ⟨kept, up⟩ := placed.climbs_iff.mp climbs
  have onward : ¬ (LosesDot text path ∨ rest = []) :=
    not_or.mpr ⟨kept, List.ne_nil_of_mem up⟩
  rw [placed.components_relative named, if_neg onward]
  exact up

theorem Placed.not_root_mem
    {name : Text}
    (placed : Placed text path rest)
    (named : path.fileName? = some name) :
    .root ∉ (SourceFile.under (fixedPart text) path).relative.components := by
  rw [placed.components_relative named]
  split
  · simp
  · exact placed.relative

end Pattern

namespace Inputs

variable
  {Store : Type}
  [Discovery Store]
  {store : Store}
  {extensions : List Text}
  {recursive : Bool}
  {argument text : Text}
  {files : List SourceFile}
  {file : SourceFile}

/-- What it means for the place of a match that the match leads up. -/
theorem place_of_mem_ofPattern
    (sound : Discovery.Sound store)
    (found : ofPattern store text = .ok files)
    (present : file ∈ files) :
    (file.relative.IsPlain ↔ ¬ Pattern.Climbs text file.path) ∧
      file.relative.isAbsolute = false ∧
      (Pattern.Climbs text file.path →
        .parent ∈ file.relative.components ∧ Pattern.MayClimb text) := by
  obtain ⟨rest, name, placed, named, under⟩ := placed_of_mem_ofPattern sound found present
  have plain := placed.isPlain_iff named
  have unrooted := Path.isAbsolute_eq_false_of_root_not_mem (placed.not_root_mem named)
  have up := placed.parent_mem named
  rw [← under] at plain unrooted up
  exact ⟨plain, unrooted, fun climbs =>
    ⟨up climbs, placed.climbs (placed.climbs_iff.mp climbs).2⟩⟩

/-- An input has a place made of names, or else a pattern found it and leads up to it. -/
theorem isPlain_or_climbs
    (sound : Discovery.Sound store)
    (inputs : ofArgument store extensions recursive argument = .ok files)
    (present : file ∈ files) :
    file.relative.IsPlain ∨
      takesAsPattern store argument = true ∧ ofPattern store argument = .ok files ∧
        Pattern.Climbs argument file.path := by
  unfold ofArgument at inputs
  dsimp only at inputs
  split at inputs
  · next leadsToFile =>
      obtain rfl := Except.ok.inj inputs
      obtain ⟨name, named⟩ := sound.named _ leadsToFile
      rw [List.mem_singleton.mp present]
      have place := SourceFile.components_relative_of_named named
      exact .inl (by simp [Path.IsPlain, place, Component.Plain, Component.isName])
  · next noFile =>
      split at inputs
      · next directory =>
          obtain ⟨names, nonempty, components⟩ :=
            components_relative_of_mem_ofDirectory sound directory inputs present
          exact .inl (by simp [Path.IsPlain, components, Component.Plain, nonempty,
            Component.isName])
      · next noDirectory =>
          by_cases climbs : Pattern.Climbs argument file.path
          · exact .inr ⟨by simp [takesAsPattern, noFile, noDirectory], inputs, climbs⟩
          · exact .inl ((place_of_mem_ofPattern sound inputs present).1.mpr climbs)

end Inputs

namespace Expansion

variable
  {Store : Type}
  [Discovery Store]
  {store : Store}
  {extensions : List Text}
  {recursive : Bool}

/-- The place of an input is made of names exactly if no pattern that found the input leads up to
it behind the fixed part, and exactly then its output lies below the output directory, whichever
it is.  A pattern that does so has a component that may lead up.  So it is in every storage that
searches soundly. -/
theorem relative_isPlain_iff
    {arguments : List Text}
    {files : List SourceFile}
    (sound : Discovery.Sound store)
    (expanded : (ofArguments store extensions recursive arguments).files = .ok files) :
    ∀ file ∈ files,
      (file.relative.IsPlain ↔
        ¬ ∃ argument ∈ arguments, Inputs.takesAsPattern store argument = true ∧
          ∃ found, Inputs.ofPattern store argument = .ok found ∧ file ∈ found ∧
            Pattern.Climbs argument file.path) ∧
      (∀ directory : Path,
        (directory.join file.relative).LiesBelow directory ↔ file.relative.IsPlain) ∧
      (¬ file.relative.IsPlain →
        ∃ argument ∈ arguments, Inputs.takesAsPattern store argument = true ∧
          Pattern.MayClimb argument) := by
  intro file present
  obtain ⟨argument, given, found, inputs, inFound⟩ := exists_of_ofArguments expanded present
  have route := Inputs.isPlain_or_climbs sound inputs inFound
  refine ⟨⟨?_, fun level => route.resolve_right ?_⟩, fun directory => ?_, fun leadsOut => ?_⟩
  · rintro plain ⟨other, -, -, others, matched, inOthers, climbs⟩
    exact (Inputs.place_of_mem_ofPattern sound matched inOthers).1.mp plain climbs
  · rintro ⟨pattern, matched, climbs⟩
    exact level ⟨argument, given, pattern, found, matched, inFound, climbs⟩
  · rcases route with plain | ⟨-, matched, climbs⟩
    · exact Path.liesBelow_join_iff (Path.anchor_eq_nil_of_isPlain plain) directory
    · obtain ⟨plain, unrooted, up⟩ := Inputs.place_of_mem_ofPattern sound matched inFound
      exact iff_of_false (Path.not_liesBelow_join_of_parent_mem (up climbs).1 unrooted directory)
        fun named => plain.mp named climbs
  · obtain ⟨pattern, matched, climbs⟩ := route.resolve_left leadsOut
    exact ⟨argument, given, pattern,
      ((Inputs.place_of_mem_ofPattern sound matched inFound).2.2 climbs).2⟩

/-- A file, and a directory with another file in a directory of its own. -/
def climbingTree : FileTree where
  entries :=
    [(["main.f90".toList], .file []), (["src".toList], .directory),
      (["src".toList, "a".toList], .directory),
      (["src".toList, "a".toList, "b.f90".toList], .file [])]
  workingDirectory := []

/-- A pattern that leads up behind its wildcard. -/
def climbingPattern : Text :=
  "src/*/../../main.f90".toList

/-- The file as a match of the pattern. -/
def climbingInput : SourceFile where
  path := ⟨"src/a/../../main.f90".toList⟩
  relative := ⟨"a/../../main.f90".toList⟩

theorem wellFormed_climbingTree : climbingTree.WellFormed :=
  ⟨by decide, by decide⟩

/-- The file in the directory is placed by the names that lead to it there. -/
theorem relative_isPlain_climbingTree :
    Discovery.Sound climbingTree ∧
      (ofArguments climbingTree ["f90".toList] true ["src".toList, "src/*/b.f90".toList]).files =
        .ok [⟨⟨"src/a/b.f90".toList⟩, ⟨"a/b.f90".toList⟩⟩] ∧
      ∀ directory : Path, (directory.join ⟨"a/b.f90".toList⟩).LiesBelow directory := by
  have sound := wellFormed_climbingTree.sound
  have expanded :
      (ofArguments climbingTree ["f90".toList] true ["src".toList, "src/*/b.f90".toList]).files =
        .ok [⟨⟨"src/a/b.f90".toList⟩, ⟨"a/b.f90".toList⟩⟩] := by cbv
  have placed := relative_isPlain_iff sound expanded _ List.mem_cons_self
  have plain : Path.IsPlain ⟨"a/b.f90".toList⟩ := by decide
  exact ⟨sound, expanded, fun directory => (placed.2.1 directory).mpr plain⟩

theorem listing_climbingInput :
    SourceFile.listing
        ([climbingInput.path].map (SourceFile.under (Pattern.fixedPart climbingPattern))) =
      [climbingInput] := by cbv

/-- The place of a match that leads up is not made of names, and its output does not lie below the
output directory: it is written over the input.  The match has this place in every storage that
finds it. -/
theorem relative_leads_up_of_climbingTree :
    Discovery.Sound climbingTree ∧
      (ofArguments climbingTree ["f90".toList] false [climbingPattern]).files =
        .ok [climbingInput] ∧
      ¬ climbingInput.relative.IsPlain ∧
      ¬ (Path.join ⟨"out".toList⟩ climbingInput.relative).LiesBelow ⟨"out".toList⟩ ∧
      climbingTree.read ⟨"main.f90".toList⟩ = .ok [] ∧
      (FileStep.write (some ⟨"out".toList⟩) true ['x'] climbingInput climbingTree).1.read
        ⟨"main.f90".toList⟩ = .ok [120] ∧
      ∀ (Store : Type) [Discovery Store] (store : Store) (extensions : List Text)
        (recursive : Bool),
        Inputs.takesAsPattern store climbingPattern = true →
        Discovery.glob store climbingPattern = .ok [.ok climbingInput.path] →
        Discovery.isFile store climbingInput.path = true →
        (ofArguments store extensions recursive [climbingPattern]).files =
          .ok [climbingInput] := by
  refine ⟨wellFormed_climbingTree.sound, by cbv, by decide, ?_, by cbv, by cbv, ?_⟩
  · exact Path.not_liesBelow_join_of_parent_mem (by decide) (by decide) ⟨"out".toList⟩
  · intro Store _ store extensions recursive pattern globbed leadsToFile
    have found :
        Discovery.glob store climbingPattern = .ok ([climbingInput.path].map .ok) := globbed
    rw [files_ofArguments_of_glob pattern found (List.forall_mem_singleton.mpr leadsToFile),
      listing_climbingInput]

end Expansion
end FortranDocs
