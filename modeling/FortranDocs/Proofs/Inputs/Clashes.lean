import FortranDocs.Proofs.Inputs.Listing
import Mathlib.Data.List.Pairwise
import Mathlib.Order.Bounds.Basic
import Mathlib.Order.Fin.Basic

/-!
# Clashes of places

The places of files are gone through in order, and the search ends at the first file that has the
place of an earlier one: `Clash.exists_of_find?`.  As no two files in front of it clash, only one of
them has its place.  `Clash.names_first_repeat` tells by their indices which files a clash names.
-/

namespace FortranDocs
namespace SourceFile

/-- Whether two files have different places. -/
def Apart (left right : SourceFile) : Prop :=
  left.relative.components ≠ right.relative.components

theorem same_relative_eq_false_iff {left right : SourceFile} :
    left.relative.same right.relative = false ↔ left.Apart right := by
  rw [Bool.eq_false_iff, Ne, Path.same_iff, Apart]

/-- Whether a file has the place of one in front of it, by their indices. -/
def Repeats (files : List SourceFile) (earlier later : Fin files.length) : Prop :=
  earlier < later ∧ files[earlier].relative.components = files[later].relative.components

/-- Of files of which no two have the same place none has the place of one in front of it. -/
theorem pairwise_apart_iff {files : List SourceFile} :
    files.Pairwise Apart ↔ ∀ earlier later, ¬ Repeats files earlier later := by
  rw [List.pairwise_iff_getElem]
  constructor
  · rintro differ earlier later ⟨before, same⟩
    exact differ earlier later earlier.isLt later.isLt before same
  · intro none earlier later inRange laterInRange before same
    exact none ⟨earlier, inRange⟩ ⟨later, laterInRange⟩ ⟨before, same⟩

end SourceFile

namespace Clash

open SourceFile (Apart Repeats)

/-- A search behind files that do not clash ends at a file that has the place of one in front of
it, while no two files in front of it clash. -/
theorem exists_of_findFrom
    {seen files : List SourceFile}
    {clash : Clash}
    (apart : seen.Pairwise Apart)
    (found : findFrom seen files = some clash) :
    ∃ between file behind earlier, files = between ++ file :: behind ∧
      (seen ++ between).Pairwise Apart ∧ earlier ∈ seen ++ between ∧
        earlier.relative.components = file.relative.components ∧
          clash = ⟨earlier.path, file.path, file.relative⟩ := by
  induction files generalizing seen with
  | nil => exact absurd found (Option.some_ne_none clash).symm
  | cons file rest inductionHypothesis =>
      rw [findFrom] at found
      split at found
      · next earlier first =>
          have same : earlier.relative.same file.relative = true := by
            simpa using List.find?_some first
          refine ⟨[], file, rest, earlier, rfl, ?_, ?_, Path.same_iff.mp same,
            (Option.some.inj found).symm⟩
          · rwa [List.append_nil]
          · rw [List.append_nil]
            exact List.mem_of_find?_eq_some first
      · next none =>
          -- the files gone through do not clash, and the next one joins them
          have longer : (seen ++ [file]).Pairwise Apart := by
            rw [List.pairwise_append]
            refine ⟨apart, List.pairwise_singleton _ _, fun earlier present last isLast => ?_⟩
            rw [List.mem_singleton.mp isLast]
            apply SourceFile.same_relative_eq_false_iff.mp
            simpa using List.find?_eq_none.mp none earlier present
          obtain ⟨between, other, behind, earlier, rfl, othersApart, present, same, clash_eq⟩ :=
            inductionHypothesis longer found
          rw [List.append_assoc, List.singleton_append] at othersApart present
          exact ⟨file :: between, other, behind, earlier, rfl, othersApart, present, same,
            clash_eq⟩

/-- The search for a clash ends at the first file that has the place of an earlier one. -/
theorem exists_of_find?
    {files : List SourceFile}
    {clash : Clash}
    (found : find? files = some clash) :
    ∃ before file behind earlier, files = before ++ file :: behind ∧ before.Pairwise Apart ∧
      earlier ∈ before ∧ earlier.relative.components = file.relative.components ∧
        clash = ⟨earlier.path, file.path, file.relative⟩ :=
  exists_of_findFrom .nil found

/-- Two indices are those of the first clash: the later one is the least that repeats a place, and
the place is repeated from the earlier one alone. -/
structure FirstRepeat (files : List SourceFile) (earlier later : Fin files.length) : Prop where
  least : IsLeast {index | ∃ other, Repeats files other index} later
  repeats : Repeats files earlier later
  alone : ∀ other, Repeats files other later → other = earlier

theorem FirstRepeat.unique
    {files : List SourceFile}
    {earlier later otherEarlier otherLater : Fin files.length}
    (first : FirstRepeat files earlier later)
    (other : FirstRepeat files otherEarlier otherLater) :
    otherEarlier = earlier ∧ otherLater = later := by
  obtain rfl := first.least.unique other.least
  exact ⟨first.alone _ other.repeats, rfl⟩

/-- Behind files that do not clash a file that has the place of one of them is the first to do
so. -/
theorem exists_firstRepeat
    {before : List SourceFile}
    {file earlier : SourceFile}
    (apart : before.Pairwise Apart)
    (present : earlier ∈ before)
    (same : earlier.relative.components = file.relative.components)
    (behind : List SourceFile) :
    ∃ first last : Fin (before ++ file :: behind).length,
      FirstRepeat (before ++ file :: behind) first last ∧
        (before ++ file :: behind)[first] = earlier ∧
          (before ++ file :: behind)[last] = file := by
  obtain ⟨index, inRange, rfl⟩ := List.getElem_of_mem present
  -- in front of the file no place is repeated, so that its own index is the least one
  have fresh (left right : Fin (before ++ file :: behind).length)
      (rightInRange : right.val < before.length) :
      ¬ Repeats (before ++ file :: behind) left right := by
    rintro ⟨ordered, leftSame⟩
    have leftInRange : left.val < before.length := Nat.lt_trans ordered rightInRange
    rw [Fin.getElem_fin, Fin.getElem_fin, List.getElem_append_left leftInRange,
      List.getElem_append_left rightInRange] at leftSame
    exact List.pairwise_iff_getElem.mp apart left right leftInRange rightInRange ordered leftSame
  let first : Fin (before ++ file :: behind).length :=
    ⟨index, by rw [List.length_append]; omega⟩
  let last : Fin (before ++ file :: behind).length := ⟨before.length, by simp⟩
  have first_eq : (before ++ file :: behind)[first] = before[index] :=
    List.getElem_append_left inRange
  have last_eq : (before ++ file :: behind)[last] = file := by
    simp [last]
  have repeats : Repeats (before ++ file :: behind) first last := by
    refine ⟨inRange, ?_⟩
    rw [first_eq, last_eq, same]
  refine ⟨first, last, ⟨⟨⟨first, repeats⟩, ?_⟩, repeats, ?_⟩, first_eq, last_eq⟩
  · rintro other ⟨left, otherRepeats⟩
    exact Nat.le_of_not_lt fun inFront => fresh left other inFront otherRepeats
  · intro other otherRepeats
    have places := otherRepeats.2.trans repeats.2.symm
    rcases lt_trichotomy other first with inFront | equal | behindFirst
    · exact absurd ⟨inFront, places⟩ (fresh other first inRange)
    · exact equal
    · exact absurd ⟨behindFirst, places.symm⟩ (fresh first other otherRepeats.1)

theorem exists_firstRepeat_of_find?
    {files : List SourceFile}
    {clash : Clash}
    (found : find? files = some clash) :
    ∃ earlier later, FirstRepeat files earlier later ∧
      clash = ⟨files[earlier].path, files[later].path, files[later].relative⟩ := by
  obtain ⟨before, file, behind, earlier, rfl, apart, present, same, rfl⟩ := exists_of_find? found
  obtain ⟨first, last, repeats, first_eq, last_eq⟩ := exists_firstRepeat apart present same behind
  exact ⟨first, last, repeats, by rw [first_eq, last_eq]⟩

/-- A clash is found unless no two files have the same place.  It names the first file that repeats
the place of an earlier one, behind that one, which no other file in front of it could be taken
for, and then the place of the later one. -/
theorem names_first_repeat (files : List SourceFile) :
    (find? files = none ↔ files.Pairwise Apart) ∧
      ∀ clash, find? files = some clash ↔
        ∃ earlier later, FirstRepeat files earlier later ∧
          clash = ⟨files[earlier].path, files[later].path, files[later].relative⟩ ∧
            clash.message = files[earlier].path.display ++ " and " ++ files[later].path.display ++
              " would both be written to " ++ files[later].relative.display := by
  have apart : find? files = none ↔ files.Pairwise Apart := by
    simp only [find?_eq_none_iff, SourceFile.same_relative_eq_false_iff]
  refine ⟨apart, fun clash => ⟨fun found => ?_, ?_⟩⟩
  · obtain ⟨earlier, later, first, rfl⟩ := exists_firstRepeat_of_find? found
    exact ⟨earlier, later, first, rfl, rfl⟩
  · rintro ⟨earlier, later, first, rfl, -⟩
    -- some clash is found, and it names the first repeat, of which there is only one
    cases search : find? files with
    | none =>
        have none := SourceFile.pairwise_apart_iff.mp (apart.mp search)
        exact absurd first.repeats (none earlier later)
    | some clash =>
        obtain ⟨otherEarlier, otherLater, other, rfl⟩ := exists_firstRepeat_of_find? search
        obtain ⟨rfl, rfl⟩ := first.unique other
        rfl

end Clash
end FortranDocs
