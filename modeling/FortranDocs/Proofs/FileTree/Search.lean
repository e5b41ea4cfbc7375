import FortranDocs.Proofs.FileTree.Matching

/-!
# The search in a file tree

A well-formed file tree searches soundly, `FileTree.WellFormed.sound`: what it lists for a walk lies
below the directory, and what it lists for a pattern has the components of the pattern.
-/

namespace FortranDocs
namespace FileTree

variable {tree : FileTree} {path : Path}

/-- Where matching starts: at the root, or else in the working directory. -/
def globStart (text : Text) : Path :=
  if text.head? = some '/' then ⟨['/']⟩ else ⟨['.']⟩

theorem globStart_text_ne_nil (text : Text) : (globStart text).text ≠ [] := by
  unfold globStart
  split <;> simp

theorem exists_matches_of_mem_glob
    {text : Text}
    {paths : List Path}
    (globbed : tree.glob text = .ok paths)
    (present : path ∈ paths) :
    ∃ patterns, (Pattern.piecesOf text).mapM Pattern.parse = .ok patterns ∧
      tree.Matches patterns (globStart text) path := by
  unfold glob at globbed
  split at globbed
  · exact nomatch globbed
  · split at globbed
    · exact nomatch globbed
    · next patterns parsed =>
        obtain rfl := Except.ok.inj globbed
        refine ⟨patterns, parsed, mem_matching_iff.mp ?_⟩
        split at present
        · exact (List.mem_filter.mp present).1
        · exact present

theorem text_ne_nil_of_isDirectory (directory : tree.isDirectory path = true) :
    path.text ≠ [] := by
  intro nothing
  simp [isDirectory, find?, locate, nothing] at directory

/-- The components of a pattern behind a leading `.` are its root and those of its pieces. -/
theorem behindCurrent_components_eq (text : Text) :
    Component.behindCurrent (Path.mk text).components =
      if text.head? = some '/' then .root :: componentsOf (Pattern.piecesOf text)
      else componentsOf (Pattern.piecesOf text) := by
  rw [componentsOf, Pattern.filterMap_piecesOf, Path.components_eq]
  by_cases absolute : text.head? = some '/'
  · have anchor : (Path.mk text).anchor = [.root] := by
      simp [Path.anchor, Path.isAbsolute, absolute]
    rw [if_pos absolute, anchor]
    rfl
  · have relative : (Path.mk text).isAbsolute = false := by
      simpa [Path.isAbsolute] using absolute
    rw [if_neg absolute]
    rcases Path.anchor_of_relative relative with anchor | anchor
    · rw [anchor, List.nil_append]
      exact Component.behindCurrent_of_head?_ne (Component.head?_ne_current_of_inner
        fun component => Component.isInner_of_mem_ofText)
    · rw [anchor]
      rfl

/-- A match that is a file matches its pattern. -/
theorem WellFormed.leadsTo_of_mem_glob
    {text : Text}
    {paths : List Path}
    (wellFormed : tree.WellFormed)
    (globbed : tree.glob text = .ok paths)
    (present : path ∈ paths)
    (leadsToFile : tree.isFile path = true) :
    Pattern.LeadsTo text path := by
  obtain ⟨patterns, parsed, matched⟩ := exists_matches_of_mem_glob globbed present
  obtain ⟨taken, led⟩ := wellFormed.exists_led matched leadsToFile (globStart_text_ne_nil text)
    parsed fun piece => Pattern.slash_not_mem_of_mem_piecesOf
  have components := behindCurrent_components_eq text
  by_cases absolute : text.head? = some '/'
  · have root : (globStart text).components = [.root] := by
      rw [globStart, if_pos absolute]
      rfl
    rw [if_pos absolute] at components
    refine .along ?_
    rcases led.follows.joined with ⟨behind, -⟩ | ⟨working, -⟩
    · rw [components, behind, root]
      exact .fixed rfl led.matched
    · exact absurd (root.symm.trans working) (by simp)
  · have current : (globStart text).components = [.current] := by
      rw [globStart, if_neg absolute]
      rfl
    rw [if_neg absolute] at components
    rcases led.follows.joined with ⟨behind, upward⟩ | ⟨-, alone⟩
    · rw [current, List.singleton_append] at behind
      rcases upward current with rfl | ⟨up, component, others, starts, dotted⟩
      · -- the path would be `.` and no file
        obtain ⟨before, name, ends⟩ := wellFormed.exists_name_of_isFile leadsToFile
        have last := congrArg List.getLast? (behind.symm.trans ends)
        simp at last
      · obtain ⟨rest, rfl⟩ := List.head?_eq_some_iff.mp up
        exact .upward (components.trans starts) dotted behind (starts ▸ led.matched)
    · refine .along ?_
      rw [components, alone]
      exact led.matched

/-- A file that a walk meets lies below the directory. -/
theorem WellFormed.exists_names_of_mem_walked
    {depth : Option Nat}
    {directory : Path}
    {entry : Walked}
    (wellFormed : tree.WellFormed)
    (inside : tree.isDirectory directory = true)
    (present : entry ∈ tree.walked depth directory) :
    ∃ names : List Text, names ≠ [] ∧
      entry.path.components = directory.components ++ names.map .name := by
  unfold walked at present
  split at present
  · simp at present
  · obtain ⟨⟨names, found⟩, below, kept⟩ := List.mem_filterMap.mp present
    obtain ⟨filled, fileNames⟩ := wellFormed.isFileName_of_mem_entriesBelow below
    refine ⟨names, filled, ?_⟩
    dsimp only at kept
    split at kept
    · obtain rfl := Option.some.inj kept
      exact Path.components_foldl_child (text_ne_nil_of_isDirectory inside) fileNames
    · exact nomatch kept

/-- A well-formed tree searches soundly. -/
theorem WellFormed.sound (wellFormed : tree.WellFormed) : Discovery.Sound tree where
  named := by
    intro path leadsToFile
    obtain ⟨front, name, ends⟩ := wellFormed.exists_name_of_isFile leadsToFile
    exact ⟨name, Path.fileName?_eq_some_iff.mpr ⟨front, ends⟩⟩
  somewhere := by
    refine Bool.eq_false_iff.mpr fun directory => ?_
    exact text_ne_nil_of_isDirectory directory rfl
  walked := by
    intro depth directory entry inside met _
    obtain ⟨other, present, same⟩ := List.mem_map.mp met
    obtain rfl := Except.ok.inj same
    exact wellFormed.exists_names_of_mem_walked inside present
  matched := by
    intro text found path globbed present leadsToFile
    cases answer : tree.glob text with
    | error error =>
        simp only [Discovery.glob, answer] at globbed
        exact nomatch globbed
    | ok paths =>
        simp only [Discovery.glob, answer, Except.ok.injEq] at globbed
        subst globbed
        obtain ⟨other, inPaths, same⟩ := List.mem_map.mp present
        obtain rfl := Except.ok.inj same
        exact wellFormed.leadsTo_of_mem_glob answer inPaths leadsToFile

end FileTree
end FortranDocs
