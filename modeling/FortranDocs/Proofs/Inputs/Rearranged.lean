import FortranDocs.FileTree.Search
import FortranDocs.Proofs.Inputs.Listing
import Mathlib

/-!
# The list of inputs in any order of the arguments

Inputs are listed once for each path, with the least of the places under which the path was found:
`SourceFile.Lists`.  This leaves no choice but in the spelling of paths.
`Expansion.listing_in_any_order` states that the list does not depend on the order in which files
were found, on how often they were found, or on the order and the repetition of the arguments.
-/

namespace FortranDocs

namespace SourceFile

/-- Two files with the same path and the same place, however these are spelled. -/
def Same (left right : SourceFile) : Prop :=
  left.path.same right.path = true ∧ left.relative.same right.relative = true

instance (left right : SourceFile) : Decidable (left.Same right) :=
  inferInstanceAs (Decidable (_ ∧ _))

/-- What the order of files looks at. -/
def components (file : SourceFile) : List Component × List Component :=
  (file.path.components, file.relative.components)

theorem same_iff {left right : SourceFile} :
    left.Same right ↔ left.components = right.components := by
  rw [Same, Path.same_iff, Path.same_iff, components, components, Prod.mk.injEq]

theorem forall₂_same_iff {files others : List SourceFile} :
    List.Forall₂ Same files others ↔ files.map components = others.map components := by
  have same_eq : Same = fun left right => left.components = right.components := by
    funext left right
    exact propext same_iff
  rw [← List.forall₂_eq_eq_eq, List.forall₂_map_left_iff, List.forall₂_map_right_iff, same_eq]

/-- Whether two lists hold the same files, in whatever order and however often. -/
structure HoldAlike (files others : List SourceFile) : Prop where
  /-- Every file of the first list is in the second. -/
  forth : ∀ file ∈ files, ∃ other ∈ others, file.Same other
  /-- Every file of the second list is in the first. -/
  back : ∀ other ∈ others, ∃ file ∈ files, other.Same file

theorem HoldAlike.symm {files others : List SourceFile} (alike : HoldAlike files others) :
    HoldAlike others files where
  forth := alike.back
  back := alike.forth

/-- Lists in another order, or with members repeated, hold the same files. -/
theorem HoldAlike.of_mem_iff
    {files others : List SourceFile}
    (same : ∀ file, file ∈ files ↔ file ∈ others) :
    HoldAlike files others where
  forth := fun file present => ⟨file, (same file).mp present, same_iff.mpr rfl⟩
  back := fun file present => ⟨file, (same file).mpr present, same_iff.mpr rfl⟩

/-- What it is for some files to be the list of the files found. -/
structure Lists (entries files : List SourceFile) : Prop where
  /-- The paths strictly increase. -/
  increasing : entries.Pairwise Before
  /-- Every entry was found. -/
  found : ∀ entry ∈ entries, entry ∈ files
  /-- Every path found has one entry. -/
  once : ∀ file ∈ files, ∃! entry, entry ∈ entries ∧ entry.path.same file.path = true
  /-- The entry has the least place that was found for its path. -/
  least : ∀ entry ∈ entries, ∀ file ∈ files, entry.path.same file.path = true →
    entry.relative.precedes file.relative = true

/-! ## The list is one -/

theorem precedes_refl (file : SourceFile) : file.precedes file = true :=
  (precedes_total file file).elim id id

/-- Every file of an ordered list has an entry of its path, which stands no later. -/
theorem exists_of_mem_go
    {previous file : SourceFile}
    {files : List SourceFile}
    (ordered : (previous :: files).Pairwise fun left right => left.precedes right = true)
    (present : file ∈ previous :: files) :
    ∃ entry ∈ previous :: withoutRepeats.go previous files,
      entry.path.same file.path = true ∧ entry.precedes file = true := by
  fun_induction withoutRepeats.go previous files with
  | case1 previous =>
      rw [List.mem_singleton.mp present]
      exact ⟨previous, List.mem_cons_self, Path.same_iff.mpr rfl, precedes_refl previous⟩
  | case2 previous repeated rest again inductionHypothesis =>
      have orderedRest := ordered.sublist (.cons_cons previous (List.sublist_cons_self _ _))
      rcases List.mem_cons.mp present with rfl | behind
      · exact inductionHypothesis orderedRest List.mem_cons_self
      · rcases List.mem_cons.mp behind with rfl | inRest
        · refine ⟨previous, List.mem_cons_self, ?_, List.rel_of_pairwise_cons ordered behind⟩
          exact Path.same_iff.mpr (Path.same_iff.mp again).symm
        · exact inductionHypothesis orderedRest (List.mem_cons_of_mem previous inRest)
  | case3 previous next rest new inductionHypothesis =>
      rcases List.mem_cons.mp present with rfl | behind
      · exact ⟨file, List.mem_cons_self, Path.same_iff.mpr rfl, precedes_refl file⟩
      · obtain ⟨entry, inEntries, entryFor⟩ := inductionHypothesis ordered.of_cons behind
        exact ⟨entry, List.mem_cons_of_mem previous inEntries, entryFor⟩

theorem exists_of_mem_withoutRepeats
    {file : SourceFile}
    {files : List SourceFile}
    (ordered : files.Pairwise fun left right => left.precedes right = true)
    (present : file ∈ files) :
    ∃ entry ∈ withoutRepeats files,
      entry.path.same file.path = true ∧ entry.precedes file = true := by
  cases files with
  | nil => exact absurd present List.not_mem_nil
  | cons first rest => exact exists_of_mem_go ordered present

/-- No two entries have the same path. -/
theorem eq_of_pairwise_before
    {entries : List SourceFile}
    (increasing : entries.Pairwise Before)
    {left right : SourceFile}
    (leftPresent : left ∈ entries)
    (rightPresent : right ∈ entries)
    (same : left.path.same right.path = true) :
    left = right := by
  have distinct : (entries.map fun entry => entry.path.components).Nodup := by
    rw [List.Nodup, List.pairwise_map]
    apply increasing.imp
    intro earlier later before equal
    exact Bool.eq_false_iff.mp before.2 (Path.same_iff.mpr equal)
  exact List.inj_on_of_nodup_map distinct leftPresent rightPresent (Path.same_iff.mp same)

theorem lists_listing (files : List SourceFile) : Lists (listing files) files := by
  have increasing := pairwise_listing files
  have entryOf : ∀ file ∈ files, ∃ entry ∈ listing files,
      entry.path.same file.path = true ∧ entry.precedes file = true := by
    intro file present
    exact exists_of_mem_withoutRepeats (pairwise_mergeSort files)
      ((List.mergeSort_perm files precedes).mem_iff.mpr present)
  refine ⟨increasing, fun _ => mem_of_mem_listing, ?_, ?_⟩
  · intro file present
    obtain ⟨entry, inEntries, same, -⟩ := entryOf file present
    refine ⟨entry, ⟨inEntries, same⟩, ?_⟩
    rintro other ⟨otherPresent, otherSame⟩
    apply eq_of_pairwise_before increasing otherPresent inEntries
    rw [Path.same_iff] at same otherSame ⊢
    exact otherSame.trans same.symm
  · intro entry inEntries file present same
    obtain ⟨other, otherPresent, otherSame, front⟩ := entryOf file present
    have equal : entry = other := by
      apply eq_of_pairwise_before increasing inEntries otherPresent
      rw [Path.same_iff] at same otherSame ⊢
      exact same.trans otherSame.symm
    have back : file.path.precedes entry.path = true :=
      (Path.precedes_antisymm_iff.mpr same).2
    rw [← equal, precedes, inOrder_cons_iff, inOrder_cons_iff] at front
    exact (front.2 back).1

/-! ## The list depends on nothing else -/

namespace Lists

variable {entries others files otherFiles : List SourceFile}

/-- An entry has the same place in each list of the same files. -/
theorem exists_same
    (lists : Lists entries files)
    (otherLists : Lists others otherFiles)
    (alike : HoldAlike files otherFiles)
    {entry : SourceFile}
    (present : entry ∈ entries) :
    ∃ other ∈ others, entry.Same other := by
  obtain ⟨file, inOthers, entrySame⟩ := alike.forth entry (lists.found entry present)
  obtain ⟨other, ⟨otherPresent, otherSame⟩, -⟩ := otherLists.once file inOthers
  obtain ⟨again, inFiles, againSame⟩ := alike.back other (otherLists.found other otherPresent)
  have back := otherLists.least other otherPresent file inOthers otherSame
  have paths : entry.path.components = other.path.components :=
    (Path.same_iff.mp entrySame.1).trans (Path.same_iff.mp otherSame).symm
  have forth : entry.relative.precedes again.relative = true := by
    apply lists.least entry present again inFiles
    exact Path.same_iff.mpr (paths.trans (Path.same_iff.mp againSame.1))
  refine ⟨other, otherPresent, Path.same_iff.mpr paths, ?_⟩
  -- each place stands no later than the other one, up to the spelling in the other list
  rw [← Path.precedes_antisymm_iff]
  unfold Path.precedes at back forth ⊢
  rw [Path.same_iff.mp againSame.2, Path.same_iff.mp entrySame.2]
  rw [Path.same_iff.mp entrySame.2] at forth
  exact ⟨forth, Path.same_iff.mp againSame.2 ▸ back⟩

/-- Two lists of the same files have the same entries, up to the spelling of paths. -/
theorem forall₂_same
    (lists : Lists entries files)
    (otherLists : Lists others otherFiles)
    (alike : HoldAlike files otherFiles) :
    List.Forall₂ Same entries others := by
  rw [forall₂_same_iff]
  have increasing {entries files : List SourceFile} (lists : Lists entries files) :
      (entries.map components).Pairwise fun left right =>
        inOrder Component.precedes left.1 right.1 = true ∧ left.1 ≠ right.1 := by
    rw [List.pairwise_map]
    apply lists.increasing.imp
    rintro left right ⟨ordered, differs⟩
    exact ⟨ordered, fun same => Bool.eq_false_iff.mp differs (Path.same_iff.mpr same)⟩
  have members : ∀ place, place ∈ entries.map components ↔ place ∈ others.map components := by
    intro place
    simp only [List.mem_map]
    constructor
    · rintro ⟨entry, present, rfl⟩
      obtain ⟨other, otherPresent, same⟩ := lists.exists_same otherLists alike present
      exact ⟨other, otherPresent, (same_iff.mp same).symm⟩
    · rintro ⟨other, otherPresent, rfl⟩
      obtain ⟨entry, present, same⟩ := otherLists.exists_same lists alike.symm otherPresent
      exact ⟨entry, present, (same_iff.mp same).symm⟩
  have nodup {entries files : List SourceFile} (lists : Lists entries files) :
      (entries.map components).Nodup :=
    (increasing lists).imp fun before same => before.2 (congrArg Prod.fst same)
  apply List.Perm.eq_of_pairwise _ (increasing lists) (increasing otherLists)
  · exact (List.perm_ext_iff_of_nodup (nodup lists) (nodup otherLists)).mpr members
  · intro left right _ _ forth back
    exact absurd (eq_of_inOrder Component.eq_of_precedes forth.1 back.1) forth.2

end Lists
end SourceFile

namespace Expansion

open SourceFile

/-- Inputs are listed in the strict order of their paths, once for each path, with the least of
the places found for it.  So files that are found in another order or more often give the same
list, up to the spelling of paths, and so do arguments in another order or repeated, unless one
of them is faulty. -/
theorem listing_in_any_order :
    (∀ files, Lists (listing files) files) ∧
      (∀ files others, HoldAlike files others →
        List.Forall₂ Same (listing files) (listing others)) ∧
        ∀ (Store : Type) [Discovery Store] (store : Store) extensions recursive
          (arguments others : List Text),
          (∀ argument, argument ∈ arguments ↔ argument ∈ others) →
          ∀ entries, (ofArguments store extensions recursive arguments).files = .ok entries →
            ∃ otherEntries,
              (ofArguments store extensions recursive others).files = .ok otherEntries ∧
                List.Forall₂ Same entries otherEntries := by
  have agree : ∀ files others, HoldAlike files others →
      List.Forall₂ Same (listing files) (listing others) := by
    intro files others alike
    exact (lists_listing files).forall₂_same (lists_listing others) alike
  refine ⟨lists_listing, agree, ?_⟩
  intro Store discovery store extensions recursive arguments others same entries expanded
  obtain ⟨inputs, rfl⟩ := files_ofArguments_eq_ok_iff.mp expanded
  refine ⟨_, files_ofArguments_eq_ok_iff.mpr ⟨?_, rfl⟩, ?_⟩
  · intro argument present
    exact inputs argument ((same argument).mpr present)
  · apply agree
    apply HoldAlike.of_mem_iff
    intro file
    simp only [List.mem_flatMap, same]

/-- A directory with a file of its own and one further down. -/
def overlappingTree : FileTree where
  entries :=
    [(["src".toList], .directory), (["src".toList, "x.f90".toList], .file []),
      (["src".toList, "zone".toList], .directory),
      (["src".toList, "zone".toList, "util.f90".toList], .file [])]
  workingDirectory := []

/-- The directory, and a file in it with a slash too many. -/
def overlappingArguments : List Text :=
  ["src".toList, "src//zone/util.f90".toList]

/-- The inputs that these lead to.  The file that was named has its name for a place, which is less
than its place in the directory. -/
def overlappingInputs : List SourceFile :=
  [⟨⟨"src/x.f90".toList⟩, ⟨"x.f90".toList⟩⟩,
    ⟨⟨"src//zone/util.f90".toList⟩, ⟨"util.f90".toList⟩⟩]

/-- The files as a search may find them that spells paths in other ways. -/
def respelledInputs : List SourceFile :=
  [⟨⟨"src/zone/util.f90".toList⟩, ⟨"util.f90".toList⟩⟩,
    ⟨⟨"src/x.f90".toList⟩, ⟨"x.f90".toList⟩⟩,
    ⟨⟨"src/./x.f90".toList⟩, ⟨"x.f90/".toList⟩⟩]

/-- The list is the same, up to the spelling of paths, for the files in another order and spelled
in other ways, and for the arguments turned around and repeated. -/
theorem listing_in_any_order_overlappingTree :
    HoldAlike overlappingInputs respelledInputs ∧
      List.Forall₂ Same (listing overlappingInputs) (listing respelledInputs) ∧
      (∀ argument, argument ∈ overlappingArguments ↔
        argument ∈ overlappingArguments.reverse ++ overlappingArguments) ∧
      (ofArguments overlappingTree ["f90".toList] true overlappingArguments).files =
        .ok overlappingInputs ∧
      ∃ otherInputs,
        (ofArguments overlappingTree ["f90".toList] true
            (overlappingArguments.reverse ++ overlappingArguments)).files = .ok otherInputs ∧
          List.Forall₂ Same overlappingInputs otherInputs := by
  obtain ⟨-, agree, rearranged⟩ := listing_in_any_order
  have alike : HoldAlike overlappingInputs respelledInputs := ⟨by decide, by decide⟩
  have expanded : (ofArguments overlappingTree ["f90".toList] true overlappingArguments).files =
      .ok overlappingInputs := by cbv
  have sameArguments : ∀ argument, argument ∈ overlappingArguments ↔
      argument ∈ overlappingArguments.reverse ++ overlappingArguments := by simp
  exact ⟨alike, agree _ _ alike, sameArguments, expanded,
    rearranged FileTree overlappingTree _ true _ _ sameArguments _ expanded⟩

end Expansion
end FortranDocs
