import FortranDocs.Inputs
import FortranDocs.Proofs.Path.Order

/-!
# The list of inputs

Every input was found by one of the arguments, `Expansion.exists_of_ofArguments`.  Inputs are
listed in the strict order of their paths, so that no two have the same path:
`SourceFile.pairwise_listing`.  No clash is found among inputs exactly if no two of them have the
same place: `Clash.find?_eq_none_iff`.
-/

namespace FortranDocs

namespace SourceFile

theorem withoutRepeats_go_sublist (previous : SourceFile) (files : List SourceFile) :
    (withoutRepeats.go previous files).Sublist files := by
  fun_induction withoutRepeats.go previous files with
  | case1 => exact .slnil
  | case2 previous file rest repeated inductionHypothesis => exact inductionHypothesis.cons file
  | case3 previous file rest new inductionHypothesis => exact inductionHypothesis.cons_cons file

theorem withoutRepeats_sublist (files : List SourceFile) :
    (withoutRepeats files).Sublist files := by
  cases files with
  | nil => exact .slnil
  | cons file rest => exact (withoutRepeats_go_sublist file rest).cons_cons file

theorem mem_of_mem_listing
    {files : List SourceFile}
    {file : SourceFile}
    (present : file ∈ listing files) :
    file ∈ files :=
  (List.mergeSort_perm files precedes).mem_iff.mp ((withoutRepeats_sublist _).mem present)

/-- Whether the path of a file stands strictly in front of that of another one. -/
def Before (left right : SourceFile) : Prop :=
  left.path.precedes right.path = true ∧ left.path.same right.path = false

theorem precedes_total (left right : SourceFile) :
    left.precedes right = true ∨ right.precedes left = true :=
  inOrder_total Path.precedes_total _ _

theorem precedes_trans
    (left middle right : SourceFile)
    (first : left.precedes middle = true)
    (second : middle.precedes right = true) :
    left.precedes right = true :=
  inOrder_trans Path.precedes_trans first second

theorem path_precedes_of_precedes
    {left right : SourceFile}
    (ordered : left.precedes right = true) :
    left.path.precedes right.path = true :=
  (inOrder_cons_iff.mp ordered).1

/-- Without repeats a file of an ordered list stands in front of those behind it. -/
theorem pairwise_before_go
    {previous : SourceFile}
    {files : List SourceFile}
    (ordered : (previous :: files).Pairwise fun left right =>
      left.path.precedes right.path = true) :
    (previous :: withoutRepeats.go previous files).Pairwise Before := by
  fun_induction withoutRepeats.go previous files with
  | case1 previous => exact List.pairwise_singleton _ _
  | case2 previous file rest repeated inductionHypothesis =>
      exact inductionHypothesis (ordered.sublist (.cons_cons previous (List.sublist_cons_self _ _)))
  | case3 previous file rest new inductionHypothesis =>
      have behind := inductionHypothesis ordered.of_cons
      have front : previous.path.precedes file.path = true :=
        List.rel_of_pairwise_cons ordered List.mem_cons_self
      refine List.pairwise_cons.mpr ⟨fun other present => ?_, behind⟩
      have onward : file.path.precedes other.path = true := by
        rcases List.mem_cons.mp present with rfl | inRest
        · exact Path.precedes_refl _
        · exact (List.rel_of_pairwise_cons behind inRest).1
      refine ⟨Path.precedes_trans _ _ _ front onward, ?_⟩
      -- a path in front with the place of the last one leaves no place in between
      rw [Bool.eq_false_iff]
      intro same
      have back : other.path.precedes previous.path = true :=
        (Path.precedes_antisymm_iff.mpr same).2
      exact new (Path.precedes_antisymm_iff.mp
        ⟨Path.precedes_trans _ _ _ onward back, front⟩)

theorem pairwise_before_withoutRepeats
    {files : List SourceFile}
    (ordered : files.Pairwise fun left right => left.path.precedes right.path = true) :
    (withoutRepeats files).Pairwise Before := by
  cases files with
  | nil => exact .nil
  | cons file rest => exact pairwise_before_go ordered

theorem pairwise_mergeSort (files : List SourceFile) :
    (files.mergeSort precedes).Pairwise fun left right => left.precedes right = true :=
  List.pairwise_mergeSort precedes_trans
    (fun left right => Bool.or_eq_true_iff.mpr (precedes_total left right)) files

/-- Inputs are listed in the strict order of their paths. -/
theorem pairwise_listing (files : List SourceFile) : (listing files).Pairwise Before :=
  pairwise_before_withoutRepeats ((pairwise_mergeSort files).imp path_precedes_of_precedes)

end SourceFile

namespace Clash

theorem findFrom_eq_none_iff {seen files : List SourceFile} :
    findFrom seen files = none ↔
      (∀ earlier ∈ seen, ∀ file ∈ files, earlier.relative.same file.relative = false) ∧
        files.Pairwise fun earlier later => earlier.relative.same later.relative = false := by
  induction files generalizing seen with
  | nil => simp [findFrom]
  | cons file rest inductionHypothesis =>
      rw [findFrom]
      split
      · next earlier found =>
          refine iff_of_false (by simp) fun apart => ?_
          have differs := apart.1 earlier (List.mem_of_find?_eq_some found) file List.mem_cons_self
          simp [List.find?_some found] at differs
      · next none =>
          have fresh : ∀ earlier ∈ seen, earlier.relative.same file.relative = false := by
            simpa using List.find?_eq_none.mp none
          rw [inductionHypothesis, List.pairwise_cons]
          constructor
          · rintro ⟨all, behind⟩
            refine ⟨fun earlier present => List.forall_mem_cons.mpr ⟨fresh earlier present, ?_⟩,
              all file (by simp), behind⟩
            exact all earlier (List.mem_append_left _ present)
          · rintro ⟨all, first, behind⟩
            refine ⟨fun earlier present other inRest => ?_, behind⟩
            rcases List.mem_append.mp present with old | last
            · exact all earlier old other (List.mem_cons_of_mem file inRest)
            · rw [List.mem_singleton.mp last]
              exact first other inRest

/-- No clash is found exactly if no two files have the same place. -/
theorem find?_eq_none_iff {files : List SourceFile} :
    find? files = none ↔
      files.Pairwise fun earlier later => earlier.relative.same later.relative = false := by
  rw [find?, findFrom_eq_none_iff]
  simp

end Clash

/-- The files that one argument leads to; none if it is faulty. -/
def Inputs.foundBy
    {Store : Type}
    [Discovery Store]
    (store : Store)
    (extensions : List Text)
    (recursive : Bool)
    (argument : Text) :
    List SourceFile :=
  match Inputs.ofArgument store extensions recursive argument with
  | .ok found => found
  | .error _ => []

/-- An argument that is taken as a pattern leads to the matches of the pattern. -/
theorem Inputs.ofArgument_of_takesAsPattern
    {Store : Type}
    [Discovery Store]
    {store : Store}
    {extensions : List Text}
    {recursive : Bool}
    {argument : Text}
    (pattern : takesAsPattern store argument = true) :
    ofArgument store extensions recursive argument = ofPattern store argument := by
  simp only [takesAsPattern, Bool.and_eq_true, Bool.not_eq_true'] at pattern
  simp [ofArgument, pattern.1, pattern.2]

namespace Expansion

variable
  {Store : Type}
  [Discovery Store]
  {store : Store}
  {extensions : List Text}
  {recursive : Bool}

theorem foundBy_of_ofArgument
    {argument : Text}
    {found : List SourceFile}
    (inputs : Inputs.ofArgument store extensions recursive argument = .ok found) :
    Inputs.foundBy store extensions recursive argument = found := by
  rw [Inputs.foundBy, inputs]

/-- One more argument adds the files that it leads to. -/
theorem files_extend_eq_ok_iff
    {expansion : Expansion}
    {argument : Text}
    {files : List SourceFile} :
    (extend store extensions recursive expansion argument).files = .ok files ↔
      ∃ before, expansion.files = .ok before ∧
        (∃ found, Inputs.ofArgument store extensions recursive argument = .ok found) ∧
          files = before ++ Inputs.foundBy store extensions recursive argument := by
  unfold extend
  cases started : expansion.files with
  | error error => simp [started]
  | ok before =>
      cases inputs : Inputs.ofArgument store extensions recursive argument with
      | error error => simp
      | ok found =>
          simp only [foundBy_of_ofArgument inputs, Except.ok.injEq, exists_eq', exists_eq_left',
            true_and]
          split
          · next unmatched =>
              rw [Bool.and_eq_true, List.isEmpty_iff] at unmatched
              rw [unmatched.1, List.append_nil, Except.ok.injEq, eq_comm]
          · rw [Except.ok.injEq, eq_comm]

theorem files_foldl_extend_eq_ok_iff
    {expansion : Expansion}
    {arguments : List Text}
    {files : List SourceFile} :
    (arguments.foldl (extend store extensions recursive) expansion).files = .ok files ↔
      ∃ before, expansion.files = .ok before ∧
        (∀ argument ∈ arguments,
          ∃ found, Inputs.ofArgument store extensions recursive argument = .ok found) ∧
          files = before ++ arguments.flatMap (Inputs.foundBy store extensions recursive) := by
  induction arguments generalizing expansion with
  | nil => simp [eq_comm]
  | cons argument rest inductionHypothesis =>
      rw [List.foldl_cons, inductionHypothesis]
      simp only [files_extend_eq_ok_iff, List.forall_mem_cons, List.flatMap_cons]
      constructor
      · rintro ⟨_, ⟨before, started, inputs, rfl⟩, others, rfl⟩
        exact ⟨before, started, ⟨inputs, others⟩, List.append_assoc _ _ _⟩
      · rintro ⟨before, started, ⟨inputs, others⟩, rfl⟩
        exact ⟨_, ⟨before, started, inputs, rfl⟩, others, (List.append_assoc _ _ _).symm⟩

/-- Inputs are listed if no argument is faulty, and they are all the files found. -/
theorem files_ofArguments_eq_ok_iff {arguments : List Text} {files : List SourceFile} :
    (ofArguments store extensions recursive arguments).files = .ok files ↔
      (∀ argument ∈ arguments,
        ∃ found, Inputs.ofArgument store extensions recursive argument = .ok found) ∧
        files =
          SourceFile.listing (arguments.flatMap (Inputs.foundBy store extensions recursive)) := by
  have mapped (result : Except InputError (List SourceFile)) :
      result.map SourceFile.listing = .ok files ↔
        ∃ found, result = .ok found ∧ files = SourceFile.listing found := by
    cases result <;> simp [Except.map, eq_comm]
  unfold ofArguments
  rw [mapped]
  simp only [files_foldl_extend_eq_ok_iff]
  constructor
  · rintro ⟨_, ⟨before, started, inputs, rfl⟩, rfl⟩
    obtain rfl := Except.ok.inj started
    exact ⟨inputs, rfl⟩
  · rintro ⟨inputs, rfl⟩
    exact ⟨_, ⟨[], rfl, inputs, rfl⟩, rfl⟩

/-- A single pattern gives a listing of its matches, if all of them are files that can be read. -/
theorem files_ofArguments_of_glob
    {text : Text}
    {paths : List Path}
    (pattern : Inputs.takesAsPattern store text = true)
    (globbed : Discovery.glob store text = .ok (paths.map .ok))
    (areFiles : ∀ path ∈ paths, Discovery.isFile store path = true) :
    (ofArguments store extensions recursive [text]).files =
      .ok (SourceFile.listing (paths.map (SourceFile.under (Pattern.fixedPart text)))) := by
  have readable :
      (paths.map (Except.ok : Path -> Except Failure Path)).filterMap Except.toOption = paths := by
    rw [List.filterMap_map]
    exact List.filterMap_some
  have inputs : Inputs.ofArgument store extensions recursive text =
      .ok (paths.map (SourceFile.under (Pattern.fixedPart text))) := by
    rw [Inputs.ofArgument_of_takesAsPattern pattern, Inputs.ofPattern, globbed]
    simp only [readable, List.filter_eq_self.mpr areFiles]
  refine files_ofArguments_eq_ok_iff.mpr ⟨?_, ?_⟩
  · exact List.forall_mem_singleton.mpr ⟨_, inputs⟩
  · rw [List.flatMap_singleton, foundBy_of_ofArgument inputs]

/-- A file was found if some argument leads to it. -/
theorem mem_flatMap_foundBy_iff
    {arguments : List Text}
    {file : SourceFile} :
    file ∈ arguments.flatMap (Inputs.foundBy store extensions recursive) ↔
      ∃ argument ∈ arguments, ∃ found,
        Inputs.ofArgument store extensions recursive argument = .ok found ∧ file ∈ found := by
  rw [List.mem_flatMap]
  apply exists_congr
  intro argument
  apply and_congr_right
  intro _
  rw [Inputs.foundBy]
  cases Inputs.ofArgument store extensions recursive argument <;> simp

/-- Every input was found by one of the arguments. -/
theorem exists_of_ofArguments
    {arguments : List Text}
    {files : List SourceFile}
    {file : SourceFile}
    (expanded : (ofArguments store extensions recursive arguments).files = .ok files)
    (present : file ∈ files) :
    ∃ argument ∈ arguments, ∃ found,
      Inputs.ofArgument store extensions recursive argument = .ok found ∧ file ∈ found := by
  obtain ⟨-, rfl⟩ := files_ofArguments_eq_ok_iff.mp expanded
  exact mem_flatMap_foundBy_iff.mp (SourceFile.mem_of_mem_listing present)

theorem pairwise_of_ofArguments
    {arguments : List Text}
    {files : List SourceFile}
    (expanded : (ofArguments store extensions recursive arguments).files = .ok files) :
    files.Pairwise SourceFile.Before := by
  obtain ⟨-, rfl⟩ := files_ofArguments_eq_ok_iff.mp expanded
  exact SourceFile.pairwise_listing _

end Expansion
end FortranDocs
