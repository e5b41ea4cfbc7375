import FortranDocs.Proofs.FileTree.Search
import FortranDocs.Proofs.Inputs.Listing
import FortranDocs.Proofs.Inputs.Placement
import Mathlib

/-!
# The layout of the matches of a pattern

The matches of one pattern keep their layout: each is placed by what is behind the components
without wildcards with which the pattern starts, and no two have the same place.  It is otherwise
where the pattern starts with `.`, as its matches do not start with it.  They are placed by their
names, and two of them clash if they have the same name: `Expansion.layout_of_pattern`.
-/

namespace FortranDocs
namespace Pattern

variable {text : Text} {path : Path} {rest : List Component} {name : Text}

/-- Whether the place of a match is what is behind the components without wildcards with which the
pattern starts, or its name if nothing is. -/
def KeepsLayout (text : Text) (file : SourceFile) : Prop :=
  ∃ rest name, file.path.components = frontOf text file.path ++ rest ∧
    file.path.fileName? = some name ∧
    file.relative.components = if rest = [] then [.name name] else rest

/-- A match keeps its place unless it loses the leading `.` and lies in a directory behind the
components without wildcards. -/
theorem Placed.keepsLayout_iff
    {file : SourceFile}
    (placed : Placed text file.path rest)
    (named : file.path.fileName? = some name)
    (under : file = SourceFile.under (fixedPart text) file.path) :
    KeepsLayout text file ↔
      (LosesDot text file.path →
        file.path.components.length ≤ (frontOf text file.path).length + 1) := by
  have place := placed.components_relative named
  rw [← under] at place
  have behind := placed.behind
  constructor
  · rintro ⟨other, otherName, otherBehind, otherNamed, otherPlace⟩ lost
    obtain rfl := List.append_cancel_left (behind.symm.trans otherBehind)
    rw [if_pos (.inl lost)] at place
    rw [behind, List.length_append]
    split at otherPlace
    · next nothing => simp [nothing]
    · simp [← place.symm.trans otherPlace]
  · intro short
    refine ⟨rest, name, behind, named, ?_⟩
    rw [place]
    by_cases nothing : rest = []
    · simp [nothing]
    · by_cases lost : LosesDot text file.path
      · have single : rest.length ≤ 1 := by
          have bound := short lost
          rw [behind, List.length_append] at bound
          omega
        obtain ⟨component, rfl⟩ : ∃ component, rest = [component] :=
          List.length_eq_one_iff.mp
            (Nat.le_antisymm single (List.length_pos_iff.mpr nothing))
        obtain ⟨before, ends⟩ := Path.fileName?_eq_some_iff.mp named
        have last := congrArg List.getLast? (behind.symm.trans ends)
        simp only [List.getLast?_concat, Option.some.injEq] at last
        simp [lost, last]
      · simp [lost]

/-- Behind a `.` that is not lost there is no single name. -/
theorem Placed.ne_singleton_of_kept
    (placed : Placed text path rest)
    (dot : (fixedPart text).components.head? = some .current)
    (kept : ¬ LosesDot text path)
    (name : Text) :
    rest ≠ [.name name] := by
  rintro rfl
  rcases placed.upward dot kept with nothing | up
  · exact absurd nothing (List.cons_ne_nil _ _)
  · simp at up

/-- Only a pattern that starts with `.` has matches that lose it. -/
theorem head?_of_losesDot (lost : LosesDot text path) :
    (Path.mk text).components.head? = some .current := by
  have fixed := components_fixedPart text
  obtain ⟨behind, all⟩ := List.takeWhile_prefix (l := (Path.mk text).components)
    Component.isFixed
  rw [← all, ← fixed, List.head?_append, lost.1, Option.some_or]

/-- Two different matches have the same place exactly if both lose the leading `.` and have the
same name. -/
theorem Placed.components_relative_eq_iff
    {other : Path}
    {otherRest : List Component}
    {otherName : Text}
    (placed : Placed text path rest)
    (named : path.fileName? = some name)
    (otherPlaced : Placed text other otherRest)
    (otherNamed : other.fileName? = some otherName)
    (differs : path.components ≠ other.components)
    (wild : wildComponents text ≠ []) :
    (SourceFile.under (fixedPart text) path).relative.components =
        (SourceFile.under (fixedPart text) other).relative.components ↔
      LosesDot text path ∧ LosesDot text other ∧ path.fileName? = other.fileName? := by
  have filled : rest ≠ [] := mt placed.stays wild
  have otherFilled : otherRest ≠ [] := mt otherPlaced.stays wild
  rw [placed.components_relative named, otherPlaced.components_relative otherNamed, named,
    otherNamed]
  simp only [filled, otherFilled, or_false]
  by_cases lost : LosesDot text path <;> by_cases otherLost : LosesDot text other
  · simp [lost, otherLost]
  · have apart := otherPlaced.ne_singleton_of_kept lost.1 otherLost name
    simp [lost, otherLost, apart.symm]
  · have apart := placed.ne_singleton_of_kept otherLost.1 lost otherName
    simp [lost, otherLost, apart]
  · have apart : rest ≠ otherRest := by
      rintro rfl
      refine differs ?_
      rw [placed.behind, otherPlaced.behind, frontOf, frontOf, if_neg lost, if_neg otherLost]
    simp [lost, otherLost, apart]

end Pattern

namespace Inputs

variable
  {Store : Type}
  [Discovery Store]
  {store : Store}
  {text : Text}
  {files : List SourceFile}
  {file other : SourceFile}

/-- Different matches come from a pattern with a wildcard. -/
theorem wildComponents_ne_nil_of_mem_ofPattern
    (sound : Discovery.Sound store)
    (found : ofPattern store text = .ok files)
    (present : file ∈ files)
    (otherPresent : other ∈ files)
    (differs : file.path.components ≠ other.path.components) :
    Pattern.wildComponents text ≠ [] := by
  intro fixed
  have alone {file : SourceFile} (present : file ∈ files) :
      file.path.components = Component.behindCurrent (Pattern.fixedPart text).components := by
    obtain ⟨entries, globbed, matched, leadsToFile, -⟩ := exists_of_mem_ofPattern found present
    exact (sound.matched _ _ _ globbed matched leadsToFile).components_eq_of_fixed fixed
  exact differs ((alone present).trans (alone otherPresent).symm)

end Inputs

namespace Expansion

variable
  {Store : Type}
  [Discovery Store]
  {store : Store}
  {extensions : List Text}
  {recursive : Bool}

theorem exists_ofPattern_of_ofArguments
    {text : Text}
    {files : List SourceFile}
    (pattern : Inputs.takesAsPattern store text = true)
    (expanded : (ofArguments store extensions recursive [text]).files = .ok files) :
    ∃ found, Inputs.ofPattern store text = .ok found ∧ files ⊆ found := by
  obtain ⟨inputs, -⟩ := files_ofArguments_eq_ok_iff.mp expanded
  obtain ⟨found, matched⟩ := inputs text List.mem_cons_self
  rw [Inputs.ofArgument_of_takesAsPattern pattern] at matched
  refine ⟨found, matched, fun file present => ?_⟩
  obtain ⟨argument, given, others, otherInputs, inOthers⟩ :=
    exists_of_ofArguments expanded present
  rw [List.mem_singleton.mp given, Inputs.ofArgument_of_takesAsPattern pattern,
    matched] at otherInputs
  exact Except.ok.inj otherInputs ▸ inOthers

/-- A match of one pattern keeps its layout unless it loses the leading `.` of the pattern and lies
in a directory behind the components without wildcards.  Two matches clash exactly if both lose
the `.` and have the same name.  So the matches of a pattern that does not start with `.` keep
their layout and do not clash.  So it is in every storage that searches soundly. -/
theorem layout_of_pattern
    {text : Text}
    {files : List SourceFile}
    (sound : Discovery.Sound store)
    (pattern : Inputs.takesAsPattern store text = true)
    (expanded : (ofArguments store extensions recursive [text]).files = .ok files) :
    (∀ file ∈ files,
        Pattern.KeepsLayout text file ↔
          (Pattern.LosesDot text file.path →
            file.path.components.length ≤ (Pattern.frontOf text file.path).length + 1)) ∧
      (Clash.find? files = none ↔
        files.Pairwise fun earlier later =>
          ¬ (Pattern.LosesDot text earlier.path ∧ Pattern.LosesDot text later.path ∧
            earlier.path.fileName? = later.path.fileName?)) ∧
      ((Path.mk text).components.head? ≠ some .current →
        (∀ file ∈ files, Pattern.KeepsLayout text file) ∧ Clash.find? files = none) := by
  obtain ⟨found, matched, all⟩ := exists_ofPattern_of_ofArguments pattern expanded
  have keeps : ∀ file ∈ files, Pattern.KeepsLayout text file ↔
      (Pattern.LosesDot text file.path →
        file.path.components.length ≤ (Pattern.frontOf text file.path).length + 1) := by
    intro file present
    obtain ⟨rest, name, placed, named, under⟩ :=
      Inputs.placed_of_mem_ofPattern sound matched (all present)
    exact placed.keepsLayout_iff named under
  have clashes {earlier later : SourceFile} (present : earlier ∈ files)
      (laterPresent : later ∈ files) (before : earlier.Before later) :
      earlier.relative.same later.relative = false ↔
        ¬ (Pattern.LosesDot text earlier.path ∧ Pattern.LosesDot text later.path ∧
          earlier.path.fileName? = later.path.fileName?) := by
    obtain ⟨rest, name, placed, named, under⟩ :=
      Inputs.placed_of_mem_ofPattern sound matched (all present)
    obtain ⟨laterRest, laterName, laterPlaced, laterNamed, laterUnder⟩ :=
      Inputs.placed_of_mem_ofPattern sound matched (all laterPresent)
    have differs : earlier.path.components ≠ later.path.components :=
      fun same => Bool.eq_false_iff.mp before.2 (Path.same_iff.mpr same)
    have wild :=
      Inputs.wildComponents_ne_nil_of_mem_ofPattern sound matched (all present)
        (all laterPresent) differs
    have same := placed.components_relative_eq_iff named laterPlaced laterNamed differs wild
    rw [← under, ← laterUnder] at same
    rw [Bool.eq_false_iff, Ne, Path.same_iff, same]
  have apart : Clash.find? files = none ↔
      files.Pairwise fun earlier later =>
        ¬ (Pattern.LosesDot text earlier.path ∧ Pattern.LosesDot text later.path ∧
          earlier.path.fileName? = later.path.fileName?) := by
    have ordered := pairwise_of_ofArguments expanded
    rw [Clash.find?_eq_none_iff]
    constructor
    · intro differ
      exact (ordered.and differ).imp_of_mem fun present laterPresent both =>
        (clashes present laterPresent both.1).mp both.2
    · intro differ
      exact (ordered.and differ).imp_of_mem fun present laterPresent both =>
        (clashes present laterPresent both.1).mpr both.2
  refine ⟨keeps, apart, fun starts => ?_⟩
  have kept (path : Path) : ¬ Pattern.LosesDot text path :=
    fun lost => starts (Pattern.head?_of_losesDot lost)
  refine ⟨fun file present => (keeps file present).mpr fun lost => absurd lost (kept _), ?_⟩
  exact apart.mpr (List.pairwise_of_forall fun earlier later both => kept _ both.1)

/-- Two directories with a file of the same name. -/
def layoutTree : FileTree where
  entries :=
    [(["src".toList], .directory), (["src".toList, "x".toList], .directory),
      (["src".toList, "x".toList, "util.f90".toList], .file []),
      (["src".toList, "y".toList], .directory),
      (["src".toList, "y".toList, "util.f90".toList], .file [])]
  workingDirectory := []

theorem wellFormed_layoutTree : layoutTree.WellFormed :=
  ⟨by decide, by decide⟩

/-- The matches of a pattern that does not start with `.` keep their layout. -/
theorem layout_of_pattern_layoutTree :
    Discovery.Sound layoutTree ∧ Inputs.takesAsPattern layoutTree "src/*/util.f90".toList = true ∧
      (ofArguments layoutTree [] false ["src/*/util.f90".toList]).files =
        .ok [⟨⟨"src/x/util.f90".toList⟩, ⟨"x/util.f90".toList⟩⟩,
          ⟨⟨"src/y/util.f90".toList⟩, ⟨"y/util.f90".toList⟩⟩] ∧
      Clash.find? [⟨⟨"src/x/util.f90".toList⟩, ⟨"x/util.f90".toList⟩⟩,
        ⟨⟨"src/y/util.f90".toList⟩, ⟨"y/util.f90".toList⟩⟩] = none := by
  have pattern : Inputs.takesAsPattern layoutTree "src/*/util.f90".toList = true := by cbv
  have expanded :
      (ofArguments layoutTree [] false ["src/*/util.f90".toList]).files =
        .ok [⟨⟨"src/x/util.f90".toList⟩, ⟨"x/util.f90".toList⟩⟩,
          ⟨⟨"src/y/util.f90".toList⟩, ⟨"y/util.f90".toList⟩⟩] := by cbv
  have layout := layout_of_pattern wellFormed_layoutTree.sound pattern expanded
  exact ⟨wellFormed_layoutTree.sound, pattern, expanded, (layout.2.2 (by decide)).2⟩

/-- The same pattern behind `./`. -/
def dottedPattern : Text :=
  "./src/*/util.f90".toList

/-- The two files as matches of the pattern that starts with `.`. -/
def dottedInputs : List SourceFile :=
  ["src/x/util.f90", "src/y/util.f90"].map fun path =>
    { path := ⟨path.toList⟩, relative := ⟨"util.f90".toList⟩ }

theorem listing_dottedInputs :
    SourceFile.listing
        ((dottedInputs.map SourceFile.path).map
          (SourceFile.under (Pattern.fixedPart dottedPattern))) =
      dottedInputs := by cbv

/-- The matches of the same pattern behind `./` lose their layout and clash.  They do in every
storage that finds them. -/
theorem layout_lost_of_layoutTree :
    Discovery.Sound layoutTree ∧ Inputs.takesAsPattern layoutTree dottedPattern = true ∧
      (ofArguments layoutTree [] false [dottedPattern]).files = .ok dottedInputs ∧
      Clash.find? dottedInputs =
        some ⟨⟨"src/x/util.f90".toList⟩, ⟨"src/y/util.f90".toList⟩, ⟨"util.f90".toList⟩⟩ ∧
      ∀ (Store : Type) [Discovery Store] (store : Store) (extensions : List Text)
        (recursive : Bool),
        Inputs.takesAsPattern store dottedPattern = true →
        Discovery.glob store dottedPattern = .ok (dottedInputs.map fun file => .ok file.path) →
        (∀ file ∈ dottedInputs, Discovery.isFile store file.path = true) →
        (ofArguments store extensions recursive [dottedPattern]).files = .ok dottedInputs := by
  refine ⟨wellFormed_layoutTree.sound, by cbv, by cbv, by cbv, ?_⟩
  intro Store _ store extensions recursive pattern globbed areFiles
  have found : Discovery.glob store dottedPattern =
      .ok ((dottedInputs.map SourceFile.path).map .ok) := by
    rw [globbed, List.map_map]
    rfl
  rw [files_ofArguments_of_glob pattern found (List.forall_mem_map.mpr areFiles),
    listing_dottedInputs]

end Expansion
end FortranDocs
