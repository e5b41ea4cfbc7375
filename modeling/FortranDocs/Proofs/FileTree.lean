import FortranDocs.FileTree
import FortranDocs.Proofs.Path.Components

/-!
# Well-formed file trees

In a well-formed tree every entry has a file name and lies in a directory.  A path that leads to a
file ends in a name, `FileTree.WellFormed.exists_name_of_isFile`: its last step is neither `.` nor
`..`, as these lead to directories.
-/

namespace FortranDocs
namespace FileTree

/-- Every entry has a file name, as has every directory on the way to it, and lies in a
directory. -/
structure WellFormed (tree : FileTree) : Prop where
  /-- The names on the way to entries. -/
  fileNames : ∀ found ∈ tree.entries, ∀ name ∈ found.1, IsFileName name
  /-- What entries lie in. -/
  parents : ∀ found ∈ tree.entries, tree.entry? found.1.dropLast = some .directory

variable {tree : FileTree} {location here there : Location}

@[simp] theorem entry?_nil (tree : FileTree) : tree.entry? [] = some .directory := rfl

theorem entry?_of_ne_nil (nonempty : location ≠ []) :
    tree.entry? location = tree.entries.lookup location := by
  unfold FileTree.entry?
  simp [nonempty]

theorem mem_of_lookup_eq_some
    {Key Value : Type}
    [BEq Key]
    [LawfulBEq Key]
    {key : Key}
    {value : Value}
    {pairs : List (Key × Value)}
    (found : pairs.lookup key = some value) :
    (key, value) ∈ pairs := by
  obtain ⟨front, back, rfl, -⟩ := List.lookup_eq_some_iff.mp found
  exact List.mem_append_right front List.mem_cons_self

/-- What an entry lies in is a directory. -/
theorem WellFormed.entry?_dropLast
    {entry : Entry}
    (wellFormed : tree.WellFormed)
    (found : tree.entry? location = some entry) :
    tree.entry? location.dropLast = some .directory := by
  by_cases top : location = []
  · subst top
    rfl
  · rw [entry?_of_ne_nil top] at found
    exact wellFormed.parents _ (mem_of_lookup_eq_some found)

theorem below?_eq_some_iff {other names : Location} :
    below? location other = some names ↔ other = location ++ names ∧ names ≠ [] := by
  unfold below?
  constructor
  · intro found
    split at found
    · next starts =>
        obtain ⟨behind, rfl⟩ := List.isPrefixOf_iff_prefix.mp starts
        rw [List.drop_left] at found
        split at found
        · simp at found
        · next nonempty =>
            obtain rfl := Option.some.inj found
            exact ⟨rfl, nonempty⟩
    · simp at found
  · rintro ⟨rfl, nonempty⟩
    rw [if_pos (List.isPrefixOf_iff_prefix.mpr (List.prefix_append location names)),
      List.drop_left]
    cases names with
    | nil => exact absurd rfl nonempty
    | cons name rest => rfl

/-- Names that lead to an entry below a location are file names. -/
theorem WellFormed.isFileName_of_mem_entriesBelow
    {found : Location × Entry}
    (wellFormed : tree.WellFormed)
    (below : found ∈ tree.entriesBelow location) :
    found.1 ≠ [] ∧ ∀ name ∈ found.1, IsFileName name := by
  obtain ⟨whole, present, rests⟩ := List.mem_filterMap.mp below
  obtain ⟨names, behind, rfl⟩ := Option.map_eq_some_iff.mp rests
  obtain ⟨all, nonempty⟩ := below?_eq_some_iff.mp behind
  refine ⟨nonempty, fun name inNames => wellFormed.fileNames whole present name ?_⟩
  rw [all]
  exact List.mem_append_right location inNames

/-- The entries of a directory have file names. -/
theorem WellFormed.isFileName_of_mem_children
    {path : Path}
    {name : Text}
    (wellFormed : tree.WellFormed)
    (child : name ∈ tree.children path) :
    IsFileName name := by
  unfold children at child
  split at child
  · simp at child
  · obtain ⟨⟨names, entry⟩, below, single⟩ := List.mem_filterMap.mp child
    dsimp only at single
    split at single
    · obtain rfl := Option.some.inj single
      exact (wellFormed.isFileName_of_mem_entriesBelow below).2 _ List.mem_cons_self
    · simp at single

/-! ## Resolving -/

/-- A step that is neither `.` nor `..`. -/
def IsNameStep (step : Text) : Prop :=
  step ≠ ['.'] ∧ step ≠ ['.', '.']

/-- Steps that lead from one location to another. -/
inductive Leads (tree : FileTree) : Location -> List Text -> Location -> Prop
  | stop (here : Location) : Leads tree here [] here
  | stay {here there : Location} {rest : List Text}
      (inside : tree.entry? here = some .directory)
      (goesOn : Leads tree here rest there) : Leads tree here (['.'] :: rest) there
  | up {here there : Location} {rest : List Text}
      (inside : tree.entry? here = some .directory)
      (goesOn : Leads tree here.dropLast rest there) :
      Leads tree here (['.', '.'] :: rest) there
  | last {here : Location} {step : Text}
      (inside : tree.entry? here = some .directory)
      (named : IsNameStep step) : Leads tree here [step] (here ++ [step])
  | along {here start there : Location} {step : Text} {rest : List Text} {target : Path}
      (inside : tree.entry? here = some .directory)
      (named : IsNameStep step)
      (filled : target.text ≠ [])
      (goesOn : Leads tree start (stepsOf target ++ rest) there) :
      Leads tree here (step :: rest) there
  | down {here there : Location} {step : Text} {rest : List Text}
      (inside : tree.entry? here = some .directory)
      (named : IsNameStep step)
      (goesOn : Leads tree (here ++ [step]) rest there) : Leads tree here (step :: rest) there

theorem leads_of_walk
    {follow : Bool}
    {links : Nat}
    {steps : List Text}
    (walked : tree.walk follow links here steps = .ok there) :
    tree.Leads here steps there := by
  fun_induction walk tree follow links here steps with
  | case1 links here =>
      obtain rfl := Except.ok.inj walked
      exact .stop here
  | case2 | case3 | case4 | case8 | case10 | case11 => exact nomatch walked
  | case5 links here rest inside inductionHypothesis =>
      exact .stay inside (inductionHypothesis walked)
  | case6 links here rest inside noDot inductionHypothesis =>
      exact .up inside (inductionHypothesis walked)
  | case7 links here step rest inside noDot noDots next missing final =>
      obtain rfl := Except.ok.inj walked
      obtain rfl := List.isEmpty_iff.mp final
      exact .last inside ⟨noDot, noDots⟩
  | case9 links here step rest inside noDot noDots next target found final =>
      obtain rfl := Except.ok.inj walked
      obtain rfl := List.isEmpty_iff.mp (Bool.and_eq_true_iff.mp final).1
      exact .last inside ⟨noDot, noDots⟩
  | case12 here step rest inside noDot noDots next target found goesOn links start nonempty
      inductionHypothesis =>
      exact .along inside ⟨noDot, noDots⟩ (by simpa using nonempty) (inductionHypothesis walked)
  | case13 links here step rest inside noDot noDots next entry noLink found
      inductionHypothesis =>
      exact .down inside ⟨noDot, noDots⟩ (inductionHypothesis walked)

/-- Steps whose last one is `.` or `..` lead to a directory. -/
theorem WellFormed.entry?_of_leads
    {steps : List Text}
    {step : Text}
    (wellFormed : tree.WellFormed)
    (leads : tree.Leads here steps there)
    (ends : steps.getLast? = some step)
    (unnamed : ¬ IsNameStep step) :
    tree.entry? there = some .directory := by
  induction leads with
  | stop here => simp at ends
  | @stay here there rest inside goesOn inductionHypothesis =>
      cases rest with
      | nil =>
          cases goesOn
          exact inside
      | cons next behind => exact inductionHypothesis (by simpa using ends)
  | @up here there rest inside goesOn inductionHypothesis =>
      cases rest with
      | nil =>
          cases goesOn
          exact wellFormed.entry?_dropLast inside
      | cons next behind => exact inductionHypothesis (by simpa using ends)
  | @last here other inside named =>
      obtain rfl : other = step := by simpa using ends
      exact absurd named unnamed
  | @along here start there other rest target inside named filled goesOn
      inductionHypothesis =>
      cases rest with
      | nil =>
          obtain rfl : other = step := by simpa using ends
          exact absurd named unnamed
      | cons next behind =>
          exact inductionHypothesis (by simpa [List.getLast?_append] using ends)
  | @down here there other rest inside named goesOn inductionHypothesis =>
      cases rest with
      | nil =>
          obtain rfl : other = step := by simpa using ends
          exact absurd named unnamed
      | cons next behind => exact inductionHypothesis (by simpa using ends)

/-! ## The last step of a path -/

theorem eq_separator_of_pieces_eq_nil
    {separator : Char}
    {text : Text}
    (empty : ∀ piece ∈ Text.splitOn separator text, piece = []) :
    ∀ character ∈ text, character = separator := by
  induction text with
  | nil => simp
  | cons character rest inductionHypothesis =>
      rw [Text.splitOn, List.splitOn_cons_eq_if_modifyHead] at empty
      split at empty
      · next equal =>
          intro other present
          rcases List.mem_cons.mp present with rfl | inRest
          · exact beq_iff_eq.mp equal
          · exact inductionHypothesis
              (fun piece inPieces => empty piece (List.mem_cons_of_mem [] inPieces)) other inRest
      · cases cut : List.splitOn separator rest with
        | nil => exact absurd cut (List.splitOn_ne_nil separator rest)
        | cons first others =>
            rw [cut, List.modifyHead_cons] at empty
            exact absurd (empty _ List.mem_cons_self) (List.cons_ne_nil character first)

theorem stepsOf_ne_nil {path : Path} (nonempty : path.text ≠ []) : stepsOf path ≠ [] := by
  unfold stepsOf
  split
  · simp
  · next noSlash =>
      intro nothing
      have empty : ∀ piece ∈ path.pieces, piece = [] := by simpa using nothing
      have slashes := eq_separator_of_pieces_eq_nil empty
      refine noSlash ?_
      rw [List.getLast?_eq_some_getLast nonempty, slashes _ (List.getLast_mem nonempty)]

/-- A path whose last step is a name ends in that name. -/
theorem exists_name_of_getLast?_stepsOf
    {path : Path}
    {step : Text}
    (ends : (stepsOf path).getLast? = some step)
    (named : IsNameStep step) :
    ∃ front, path.components = front ++ [.name step] := by
  unfold stepsOf at ends
  split at ends
  · exact absurd (by simpa using ends.symm) named.1
  · dsimp only at ends
    obtain ⟨front, steps⟩ := List.getLast?_eq_some_iff.mp ends
    have stands : Component.ofPiece? step = some (.name step) := by
      have filled : step ≠ [] := by
        have kept : step ∈ path.pieces.filter fun piece => !piece.isEmpty := by simp [steps]
        simpa using (List.mem_filter.mp kept).2
      exact Component.ofPiece?_eq_name_iff.mpr ⟨rfl, filled, named⟩
    have pieces : path.pieces.filterMap Component.ofPiece? =
        (path.pieces.filter fun piece => !piece.isEmpty).filterMap Component.ofPiece? := by
      rw [List.filterMap_filter]
      congr 1
      funext piece
      cases piece <;> rfl
    have text : Component.ofText path.text =
        front.filterMap Component.ofPiece? ++ [.name step] := by
      rw [Component.ofText, ← Path.pieces, pieces, steps, List.filterMap_append,
        List.filterMap_cons_some stands, List.filterMap_nil]
    exact ⟨path.anchor ++ front.filterMap Component.ofPiece?, by
      rw [Path.components_eq, text, List.append_assoc]⟩

theorem text_ne_nil_of_hasEntry {path : Path} (has : tree.hasEntry path = true) :
    path.text ≠ [] := by
  intro nothing
  simp [hasEntry, find?, locate, nothing] at has

/-- The last step of a path that leads to a file is a name. -/
theorem WellFormed.exists_isNameStep_of_isFile
    {path : Path}
    (wellFormed : tree.WellFormed)
    (leadsToFile : tree.isFile path = true) :
    ∃ step, (stepsOf path).getLast? = some step ∧ IsNameStep step := by
  unfold isFile at leadsToFile
  split at leadsToFile
  · next content found =>
      unfold find? at found
      split at found
      · next location located =>
          unfold locate at located
          split at located
          · simp at located
          · next filled =>
              have nonempty : path.text ≠ [] := by simpa using filled
              obtain ⟨step, ends⟩ : ∃ step, (stepsOf path).getLast? = some step :=
                ⟨_, List.getLast?_eq_some_getLast (stepsOf_ne_nil nonempty)⟩
              refine ⟨step, ends, ?_⟩
              by_cases named : IsNameStep step
              · exact named
              · simp [wellFormed.entry?_of_leads (leads_of_walk located) ends named] at found
      · simp at found
  · simp at leadsToFile

/-- A path that leads to a file ends in a name. -/
theorem WellFormed.exists_name_of_isFile
    {path : Path}
    (wellFormed : tree.WellFormed)
    (leadsToFile : tree.isFile path = true) :
    ∃ front name, path.components = front ++ [.name name] := by
  obtain ⟨step, ends, named⟩ := wellFormed.exists_isNameStep_of_isFile leadsToFile
  obtain ⟨front, all⟩ := exists_name_of_getLast?_stepsOf ends named
  exact ⟨front, step, all⟩

/-- Whether the last step of a path stays where it is. -/
def EndsInDot (path : Path) : Prop :=
  (stepsOf path).getLast? = some ['.']

theorem WellFormed.not_endsInDot_of_isFile
    {path : Path}
    (wellFormed : tree.WellFormed)
    (leadsToFile : tree.isFile path = true) :
    ¬ EndsInDot path := by
  intro dot
  obtain ⟨step, ends, named⟩ := wellFormed.exists_isNameStep_of_isFile leadsToFile
  exact named.1 (Option.some.inj (ends.symm.trans dot))

theorem endsInDot_of_getLast? {path : Path} (slash : path.text.getLast? = some '/') :
    EndsInDot path := by
  rw [EndsInDot, stepsOf, if_pos slash, List.getLast?_concat]

theorem endsInDot_append_dot (front : Text) : EndsInDot ⟨front ++ ['/', '.']⟩ := by
  have noSlash : (front ++ ['/', '.']).getLast? ≠ some '/' := by
    simp [List.getLast?_append]
  rw [EndsInDot, stepsOf, if_neg noSlash, Path.pieces_append_slash, List.filter_append]
  exact List.getLast?_concat

/-- A path with nothing or with `.` behind it stays where it is. -/
theorem endsInDot_child
    {path : Path}
    {name : Text}
    (nonempty : path.text ≠ [])
    (nothing : Component.ofPiece? name = none) :
    EndsInDot (path.child name) := by
  obtain ⟨text⟩ := path
  have closed : text.isEmpty = false := by simpa using nonempty
  rcases Component.ofPiece?_eq_none_iff.mp nothing with rfl | rfl
  · refine endsInDot_of_getLast? ?_
    by_cases slash : text.getLast? = some '/' <;>
      simp [Path.child, Path.join, Path.isAbsolute, closed, slash, List.getLast?_append]
  · by_cases slash : text.getLast? = some '/'
    · obtain ⟨front, rfl⟩ := List.getLast?_eq_some_iff.mp slash
      simpa [Path.child, Path.join, Path.isAbsolute] using endsInDot_append_dot front
    · simpa [Path.child, Path.join, Path.isAbsolute, closed, slash] using
        endsInDot_append_dot text

end FileTree
end FortranDocs
