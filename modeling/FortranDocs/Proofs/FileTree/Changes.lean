import FortranDocs.Proofs.FileTree
import FortranDocs.Proofs.Text.Utf8
import FortranDocs.Storage

/-!
# Changes of file trees

Writing files and making directories keeps a tree well-formed.  What was written is read again,
and nothing else is changed, `FileTree.WellFormed.readText_writeText`: a well-formed tree is a map
from the locations of files to their texts.
-/

namespace FortranDocs
namespace FileTree

variable {tree : FileTree} {location here there : Location}

/-- A location at which an entry may be put. -/
structure HasPlace (tree : FileTree) (location : Location) : Prop where
  /-- The names on the way. -/
  fileNames : ∀ name ∈ location, IsFileName name
  /-- What the location lies in. -/
  parent : tree.entry? location.dropLast = some .directory

theorem hasPlace_nil (tree : FileTree) : tree.HasPlace [] :=
  ⟨by simp, rfl⟩

theorem WellFormed.hasPlace_of_found
    {entry : Entry}
    (wellFormed : tree.WellFormed)
    (found : tree.entry? location = some entry) :
    tree.HasPlace location := by
  by_cases top : location = []
  · subst top
    exact hasPlace_nil tree
  · refine ⟨?_, wellFormed.entry?_dropLast found⟩
    rw [entry?_of_ne_nil top] at found
    exact wellFormed.fileNames _ (mem_of_lookup_eq_some found)

theorem WellFormed.hasPlace_concat
    {step : Text}
    (wellFormed : tree.WellFormed)
    (inside : tree.entry? here = some .directory)
    (fileName : IsFileName step) :
    tree.HasPlace (here ++ [step]) := by
  refine ⟨fun name present => ?_, by rwa [List.dropLast_concat]⟩
  rcases List.mem_append.mp present with onTheWay | last
  · exact (wellFormed.hasPlace_of_found inside).fileNames name onTheWay
  · rwa [List.mem_singleton.mp last]

theorem isFileName_of_mem_stepsOf
    {path : Path}
    {step : Text}
    (present : step ∈ stepsOf path)
    (named : IsNameStep step) :
    IsFileName step := by
  have inPieces : step ∈ path.pieces.filter fun piece => !piece.isEmpty := by
    unfold stepsOf at present
    split at present
    · exact (List.mem_append.mp present).resolve_right
        fun last => named.1 (List.mem_singleton.mp last)
    · exact present
  obtain ⟨whole, filled⟩ := List.mem_filter.mp inPieces
  exact ⟨Component.ofPiece?_eq_name_iff.mpr ⟨rfl, by simpa using filled, named⟩,
    Text.separator_not_mem_of_mem_splitOn whole⟩

/-- Steps lead to an entry, or to a location in a directory. -/
theorem WellFormed.hasPlace_of_leads
    {steps : List Text}
    (wellFormed : tree.WellFormed)
    (leads : tree.Leads here steps there)
    (nonempty : steps ≠ [])
    (fileNames : ∀ step ∈ steps, IsNameStep step → IsFileName step) :
    tree.HasPlace there := by
  induction leads with
  | stop here => exact absurd rfl nonempty
  | @stay here there rest inside goesOn inductionHypothesis =>
      cases rest with
      | nil =>
          cases goesOn
          exact wellFormed.hasPlace_of_found inside
      | cons next behind =>
          exact inductionHypothesis (List.cons_ne_nil next behind)
            fun step present => fileNames step (List.mem_cons_of_mem _ present)
  | @up here there rest inside goesOn inductionHypothesis =>
      cases rest with
      | nil =>
          cases goesOn
          exact wellFormed.hasPlace_of_found (wellFormed.entry?_dropLast inside)
      | cons next behind =>
          exact inductionHypothesis (List.cons_ne_nil next behind)
            fun step present => fileNames step (List.mem_cons_of_mem _ present)
  | last inside named =>
      exact wellFormed.hasPlace_concat inside (fileNames _ List.mem_cons_self named)
  | along inside named filled goesOn inductionHypothesis =>
      refine inductionHypothesis (List.append_ne_nil_of_left_ne_nil (stepsOf_ne_nil filled) _) ?_
      intro step present
      rcases List.mem_append.mp present with inTarget | inRest
      · exact isFileName_of_mem_stepsOf inTarget
      · exact fileNames step (List.mem_cons_of_mem _ inRest)
  | @down here there step rest inside named goesOn inductionHypothesis =>
      cases rest with
      | nil =>
          cases goesOn
          exact wellFormed.hasPlace_concat inside (fileNames step List.mem_cons_self named)
      | cons next behind =>
          exact inductionHypothesis (List.cons_ne_nil next behind)
            fun step present => fileNames step (List.mem_cons_of_mem _ present)

theorem WellFormed.hasPlace_of_locate
    {follow : Bool}
    {path : Path}
    (wellFormed : tree.WellFormed)
    (located : tree.locate follow path = .ok location) :
    tree.HasPlace location := by
  unfold locate at located
  split at located
  · simp at located
  · next filled =>
      exact wellFormed.hasPlace_of_leads (leads_of_walk located)
        (stepsOf_ne_nil (by simpa using filled)) fun step => isFileName_of_mem_stepsOf

theorem lookup_filter_of_ne
    {location other : Location}
    (entries : List (Location × Entry))
    (apart : other ≠ location) :
    (entries.filter fun found => found.1 != location).lookup other = entries.lookup other := by
  induction entries with
  | nil => rfl
  | cons found rest inductionHypothesis =>
      rw [List.filter_cons]
      by_cases equal : other = found.1
      · rw [if_pos (by simpa [← equal] using apart), List.lookup_cons, List.lookup_cons]
        simp [equal]
      · have differs : (other == found.1) = false := beq_false_of_ne equal
        rw [List.lookup_cons, differs]
        split
        · rw [List.lookup_cons, differs]
          exact inductionHypothesis
        · exact inductionHypothesis

theorem entry?_put_self
    {entry : Entry}
    (nonempty : location ≠ []) :
    entry? (tree.put location entry) location = some entry := by
  have others : (tree.entries.filter fun found => found.1 != location).lookup location = none := by
    refine List.lookup_eq_none_iff.mpr fun found kept => ?_
    have apart : found.1 ≠ location := bne_iff_ne.mp (List.mem_filter.mp kept).2
    exact bne_iff_ne.mpr apart.symm
  rw [entry?_of_ne_nil nonempty, put, List.lookup_append]
  simp [others]

theorem entry?_put_of_ne
    {entry : Entry}
    {other : Location}
    (apart : other ≠ location) :
    entry? (tree.put location entry) other = tree.entry? other := by
  by_cases top : other = []
  · subst top
    rfl
  · have single : [(location, entry)].lookup other = none := by simp [apart]
    rw [entry?_of_ne_nil top, entry?_of_ne_nil top, put, List.lookup_append, single,
      Option.or_none]
    exact lookup_filter_of_ne tree.entries apart

/-- Putting an entry into a directory keeps a tree well-formed, unless a file or a link takes the
place of a directory. -/
theorem WellFormed.put
    {entry : Entry}
    (wellFormed : tree.WellFormed)
    (place : tree.HasPlace location)
    (replaces : entry = .directory ∨ tree.entry? location ≠ some .directory) :
    (tree.put location entry).WellFormed := by
  have keeps {other : Location} (inside : tree.entry? other = some .directory) :
      entry? (tree.put location entry) other = some .directory := by
    by_cases same : other = location
    · subst same
      by_cases top : other = []
      · subst top
        rfl
      · rw [entry?_put_self top, replaces.resolve_right (not_not_intro inside)]
    · rw [entry?_put_of_ne same, inside]
  have cases {found : Location × Entry} (present : found ∈ (tree.put location entry).entries) :
      found ∈ tree.entries ∨ found = (location, entry) := by
    rcases List.mem_append.mp present with old | new
    · exact .inl (List.mem_filter.mp old).1
    · exact .inr (List.mem_singleton.mp new)
  constructor
  · intro found present
    rcases cases present with old | rfl
    · exact wellFormed.fileNames found old
    · exact place.fileNames
  · intro found present
    rcases cases present with old | rfl
    · exact keeps (wellFormed.parents found old)
    · exact keeps place.parent

/-- What comes of writing a file. -/
theorem exists_of_write
    {path : Path}
    {content : List UInt8}
    {written : FileTree}
    (success : tree.write path content = .ok written) :
    ∃ location, tree.locate true path = .ok location ∧
      tree.entry? location ≠ some .directory ∧ written = tree.put location (.file content) := by
  unfold FileTree.write at success
  split at success
  · exact nomatch success
  · next location located =>
      split at success
      · exact nomatch success
      · next noDirectory => exact ⟨location, located, noDirectory, (Except.ok.inj success).symm⟩

/-- Writing a file keeps a tree well-formed. -/
theorem WellFormed.write
    {path : Path}
    {content : List UInt8}
    {written : FileTree}
    (wellFormed : tree.WellFormed)
    (success : tree.write path content = .ok written) :
    written.WellFormed := by
  obtain ⟨location, located, noDirectory, rfl⟩ := exists_of_write success
  exact wellFormed.put (wellFormed.hasPlace_of_locate located) (.inr noDirectory)

/-- Making a directory keeps a tree well-formed. -/
theorem WellFormed.makeDirectory
    {path : Path}
    {made : FileTree}
    (wellFormed : tree.WellFormed)
    (success : tree.makeDirectory path = .ok made) :
    made.WellFormed := by
  unfold FileTree.makeDirectory at success
  dsimp only at success
  split at success
  · simp at success
  · split at success
    · simp at success
    · next location located =>
        split at success
        · simp at success
        · obtain rfl := Except.ok.inj success
          exact wellFormed.put (wellFormed.hasPlace_of_locate located) (.inl rfl)

theorem WellFormed.haveDirectory
    (wellFormed : tree.WellFormed)
    (path : Path) :
    (tree.haveDirectory path).1.WellFormed := by
  unfold FileTree.haveDirectory
  split
  · next made success => exact wellFormed.makeDirectory success
  · exact wellFormed

/-- Making directories keeps a tree well-formed, also where it fails half-way. -/
theorem WellFormed.makeAncestors
    (wellFormed : tree.WellFormed)
    (paths : List Path) :
    (tree.makeAncestors paths).1.WellFormed := by
  fun_induction FileTree.makeAncestors tree paths with
  | case1 => exact wellFormed
  | case2 => exact wellFormed
  | case3 tree path above filled parents parentsMade made error madeAbove inductionHypothesis =>
      have parentsWellFormed : parents.WellFormed := by
        simpa [parentsMade] using wellFormed.haveDirectory path
      simpa [madeAbove] using inductionHypothesis parentsWellFormed
  | case4 tree path above filled parents parentsMade made madeAbove inductionHypothesis =>
      have parentsWellFormed : parents.WellFormed := by
        simpa [parentsMade] using wellFormed.haveDirectory path
      have madeWellFormed : made.WellFormed := by
        simpa [madeAbove] using inductionHypothesis parentsWellFormed
      exact madeWellFormed.haveDirectory _
  | case5 => exact wellFormed.haveDirectory _

/-- Making a directory and those above it keeps a tree well-formed. -/
theorem WellFormed.makeDirectories
    (wellFormed : tree.WellFormed)
    (path : Path) :
    (tree.makeDirectories path).1.WellFormed :=
  wellFormed.makeAncestors _

/-! ## What is read afterwards -/

/-- Whether there is no directory and no link at a location. -/
def IsOpen (tree : FileTree) (location : Location) : Prop :=
  ∀ entry, tree.entry? location = some entry → entry.isFile = true

theorem IsOpen.entry?_put
    {content : List UInt8}
    {entry : Entry}
    {other : Location}
    (isOpen : tree.IsOpen location)
    (found : tree.entry? other = some entry)
    (noFile : entry.isFile = false) :
    entry? (tree.put location (.file content)) other = some entry := by
  have apart : other ≠ location := by
    rintro rfl
    exact Bool.false_ne_true (noFile.symm.trans (isOpen entry found))
  rw [entry?_put_of_ne apart, found]

/-- Steps lead to where they led before a file was written. -/
theorem IsOpen.walk_put
    {content : List UInt8}
    {follow : Bool}
    {links : Nat}
    {steps : List Text}
    (isOpen : tree.IsOpen location)
    (walked : tree.walk follow links here steps = .ok there) :
    walk (tree.put location (.file content)) follow links here steps = .ok there := by
  fun_induction walk tree follow links here steps with
  | case1 links here => rwa [walk]
  | case2 | case3 | case4 | case8 | case10 | case11 => cases walked
  | case5 links here rest inside inductionHypothesis =>
      rw [walk, isOpen.entry?_put inside rfl]
      simpa using inductionHypothesis walked
  | case6 links here rest inside noDot inductionHypothesis =>
      rw [walk, isOpen.entry?_put inside rfl]
      simpa using inductionHypothesis walked
  | case7 links here step rest inside noDot noDots next missing final =>
      obtain rfl := List.isEmpty_iff.mp final
      obtain rfl := Except.ok.inj walked
      rw [walk, isOpen.entry?_put inside rfl]
      simp only [noDot, noDots, if_false]
      by_cases same : next = location
      · subst same
        rw [entry?_put_self (by simp [next])]
        simp only [walk, next]
      · rw [entry?_put_of_ne same, missing]
        rfl
  | case9 links here step rest inside noDot noDots next target found final =>
      have kept : entry? (tree.put location (.file content)) (here ++ [step]) =
          some (.link target) := isOpen.entry?_put found rfl
      rw [walk, isOpen.entry?_put inside rfl]
      simp only [noDot, noDots, if_false, kept, final, if_true]
      exact walked
  | case12 here step rest inside noDot noDots next target found goesOn links start nonempty
      inductionHypothesis =>
      have kept : entry? (tree.put location (.file content)) (here ++ [step]) =
          some (.link target) := isOpen.entry?_put found rfl
      rw [walk, isOpen.entry?_put inside rfl]
      simp only [noDot, noDots, if_false, kept, goesOn, nonempty]
      exact inductionHypothesis walked
  | case13 links here step rest inside noDot noDots next entry noLink found
      inductionHypothesis =>
      obtain ⟨other, kept, stillNoLink⟩ : ∃ other,
          entry? (tree.put location (.file content)) (here ++ [step]) = some other ∧
            ∀ target, other ≠ .link target := by
        by_cases same : here ++ [step] = location
        · subst same
          exact ⟨.file content, entry?_put_self (by simp), by simp⟩
        · exact ⟨entry, (entry?_put_of_ne same).trans found, noLink⟩
      rw [walk, isOpen.entry?_put inside rfl]
      simp only [noDot, noDots, if_false, kept]
      cases other with
      | link target => exact absurd rfl (stillNoLink target)
      | directory | file => exact inductionHypothesis walked

/-- Where links are followed to the end, no steps lead to a link. -/
theorem WellFormed.ne_link_of_walk
    {links : Nat}
    {steps : List Text}
    (wellFormed : tree.WellFormed)
    (walked : tree.walk true links here steps = .ok there)
    (nonempty : steps ≠ [])
    (target : Path) :
    tree.entry? there ≠ some (.link target) := by
  have stays {start : Location} {entry : Entry} (links : Nat)
      (found : tree.entry? start = some entry) (noLink : entry ≠ .link target)
      (ended : tree.walk true links start [] = .ok there) :
      tree.entry? there ≠ some (.link target) := by
    rw [walk] at ended
    obtain rfl := Except.ok.inj ended
    rw [found]
    exact fun same => noLink (Option.some.inj same)
  generalize followed : true = follow at walked
  fun_induction walk tree follow links here steps with
  | case1 => exact absurd rfl nonempty
  | case2 | case3 | case4 | case8 | case10 | case11 => cases walked
  | case5 links here rest inside inductionHypothesis =>
      subst followed
      by_cases final : rest = []
      · subst final
        exact stays links inside (by simp) walked
      · exact inductionHypothesis final walked
  | case6 links here rest inside noDot inductionHypothesis =>
      subst followed
      by_cases final : rest = []
      · subst final
        exact stays links (wellFormed.entry?_dropLast inside) (by simp) walked
      · exact inductionHypothesis final walked
  | case7 links here step rest inside noDot noDots next missing final =>
      obtain rfl := Except.ok.inj walked
      rw [missing]
      exact (Option.some_ne_none _).symm
  | case9 links here step rest inside noDot noDots next linked found final =>
      subst followed
      simp at final
  | case12 here step rest inside noDot noDots next linked found goesOn links start filled
      inductionHypothesis =>
      refine inductionHypothesis ?_ walked
      exact List.append_ne_nil_of_left_ne_nil (stepsOf_ne_nil (by simpa using filled)) rest
  | case13 links here step rest inside noDot noDots next entry noLink found
      inductionHypothesis =>
      subst followed
      by_cases final : rest = []
      · subst final
        exact stays links found (fun same => noLink target same) walked
      · exact inductionHypothesis final walked

/-- A file can be written where there is no directory. -/
theorem WellFormed.isOpen_of_locate
    {path : Path}
    (wellFormed : tree.WellFormed)
    (located : tree.locate true path = .ok location)
    (noDirectory : tree.entry? location ≠ some .directory) :
    tree.IsOpen location := by
  unfold locate at located
  split at located
  · exact nomatch located
  · next filled =>
      have noLink := wellFormed.ne_link_of_walk located (stepsOf_ne_nil (by simpa using filled))
      intro entry found
      cases entry with
      | file content => rfl
      | directory => exact absurd found noDirectory
      | link target => exact absurd found (noLink target)

theorem IsOpen.locate_put
    {path : Path}
    {content : List UInt8}
    (isOpen : tree.IsOpen location)
    (located : tree.locate true path = .ok there) :
    locate (tree.put location (.file content)) true path = .ok there := by
  unfold locate at located ⊢
  split at located
  · exact nomatch located
  · next filled =>
      rw [if_neg filled]
      exact isOpen.walk_put located

/-- The content that was written is read again, and every other file is as it was. -/
theorem WellFormed.read_write
    {path : Path}
    {content : List UInt8}
    {written : FileTree}
    (wellFormed : tree.WellFormed)
    (success : tree.write path content = .ok written) :
    written.read path = .ok content ∧
      ∀ (other : Path) (place : Location), tree.locate true other = .ok place →
        tree.locate true path ≠ .ok place → written.read other = tree.read other := by
  obtain ⟨location, located, noDirectory, rfl⟩ := exists_of_write success
  have isOpen := wellFormed.isOpen_of_locate located noDirectory
  constructor
  · have somewhere : location ≠ [] := by
      rintro rfl
      exact noDirectory rfl
    rw [read, isOpen.locate_put located]
    simp only [entry?_put_self somewhere]
  · intro other place found apart
    have elsewhere : place ≠ location := by
      rintro rfl
      exact apart located
    rw [read, isOpen.locate_put found, read, found]
    simp only [entry?_put_of_ne elsewhere]

/-- A well-formed tree is a storage: the text that was written is read again, and the texts of all
other files are as they were. -/
theorem WellFormed.readText_writeText
    {path : Path}
    {text : Text}
    {written : FileTree}
    (wellFormed : tree.WellFormed)
    (success : Storage.writeText tree path text = .ok written) :
    Storage.readText written path = .ok text ∧
      ∀ (other : Path) (place : Location), tree.locate true other = .ok place →
        tree.locate true path ≠ .ok place →
          Storage.readText written other = Storage.readText tree other := by
  obtain ⟨content, elsewhere⟩ := wellFormed.read_write success
  constructor
  · change readText written path = .ok text
    simp only [readText, content, Utf8.decode_encode]
  · intro other place found apart
    change readText written other = readText tree other
    simp only [readText, elsewhere other place found apart]

end FileTree
end FortranDocs
