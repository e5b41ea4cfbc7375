import FortranDocs.Proofs.Path.Components

/-!
# Parts of paths

A path is cut by leaving out pieces of its text, `.` and empty ones with those next to them.
What remains has the components behind those of another path,
`Path.components_of_dropFront?`, or all but the last, `Path.components_of_parent?`.
-/

namespace FortranDocs
namespace Path

/-! ## Pieces left out -/

/-- Pieces that are left out at the start stand for nothing. -/
@[simp] theorem filterMap_trimPieces (pieces : List Text) :
    (trimPieces pieces).filterMap Component.ofPiece? =
      pieces.filterMap Component.ofPiece? := by
  induction pieces with
  | nil => rfl
  | cons piece rest inductionHypothesis =>
      rw [trimPieces, List.dropWhile_cons]
      split
      · next nothing =>
          rw [List.filterMap_cons_none (Option.isNone_iff_eq_none.mp nothing)]
          exact inductionHypothesis
      · rfl

/-- What is left starts with a component. -/
theorem isSome_of_trimPieces_eq_cons
    {pieces rest : List Text}
    {first : Text}
    (left : trimPieces pieces = first :: rest) :
    (Component.ofPiece? first).isSome = true := by
  have stop := List.head?_dropWhile_not (fun piece => (Component.ofPiece? piece).isNone) pieces
  rw [trimPieces] at left
  simpa [left] using stop

theorem mem_of_mem_trimPieces
    {pieces : List Text}
    {piece : Text}
    (present : piece ∈ trimPieces pieces) :
    piece ∈ pieces :=
  (List.dropWhile_sublist _).mem present

/-- Pieces that are left out at the end stand for nothing. -/
@[simp] theorem filterMap_trimLastPieces (pieces : List Text) :
    (trimLastPieces pieces).filterMap Component.ofPiece? =
      pieces.filterMap Component.ofPiece? := by
  rw [trimLastPieces, List.filterMap_reverse, filterMap_trimPieces, List.filterMap_reverse,
    List.reverse_reverse]

theorem isPrefix_trimLastPieces (pieces : List Text) : trimLastPieces pieces <+: pieces := by
  have suffix : trimPieces pieces.reverse <:+ pieces.reverse := List.dropWhile_suffix _
  simpa [trimLastPieces] using List.reverse_prefix.mpr suffix

/-- As many components are dropped as asked for. -/
theorem filterMap_dropComponents (count : Nat) (pieces : List Text) :
    (dropComponents count pieces).filterMap Component.ofPiece? =
      (pieces.filterMap Component.ofPiece?).drop count := by
  fun_induction dropComponents count pieces with
  | case1 pieces => simp
  | case2 count => simp
  | case3 count piece rest nothing inductionHypothesis =>
      rw [inductionHypothesis,
        List.filterMap_cons_none (Option.isNone_iff_eq_none.mp nothing)]
  | case4 count piece rest something inductionHypothesis =>
      obtain ⟨component, stands⟩ : ∃ component, Component.ofPiece? piece = some component := by
        simpa [Option.ne_none_iff_exists'] using something
      rw [inductionHypothesis, List.filterMap_cons_some stands, List.drop_succ_cons]

theorem dropComponents_suffix (count : Nat) (pieces : List Text) :
    dropComponents count pieces <:+ pieces := by
  fun_induction dropComponents count pieces with
  | case1 pieces => exact List.dropWhile_suffix _
  | case2 count => exact List.suffix_rfl
  | case3 count piece rest nothing inductionHypothesis =>
      exact inductionHypothesis.trans (List.suffix_cons piece rest)
  | case4 count piece rest something inductionHypothesis =>
      exact inductionHypothesis.trans (List.suffix_cons piece rest)

theorem isSome_of_dropComponents_eq_cons
    {count : Nat}
    {pieces rest : List Text}
    {first : Text}
    (left : dropComponents count pieces = first :: rest) :
    (Component.ofPiece? first).isSome = true := by
  fun_induction dropComponents count pieces with
  | case1 pieces => exact isSome_of_trimPieces_eq_cons left
  | case2 count => simp at left
  | case3 count piece others nothing inductionHypothesis => exact inductionHypothesis left
  | case4 count piece others something inductionHypothesis => exact inductionHypothesis left

/-- Pieces without slashes are the pieces of the text that joins them. -/
theorem pieces_joinOn
    {pieces : List Text}
    (nonempty : pieces ≠ [])
    (whole : ∀ piece ∈ pieces, '/' ∉ piece) :
    Path.pieces ⟨Text.joinOn '/' pieces⟩ = pieces :=
  List.splitOn_intercalate '/' whole nonempty

theorem whole_of_pieces_eq
    {path : Path}
    {pieces : List Text}
    (cut : path.pieces = pieces) :
    ∀ piece ∈ pieces, '/' ∉ piece :=
  fun _ present => Text.separator_not_mem_of_mem_splitOn (cut ▸ present)

/-- Pieces joined to a path whose first one is a component have the components that the pieces
stand for. -/
theorem components_joinOn
    {pieces : List Text}
    (whole : ∀ piece ∈ pieces, '/' ∉ piece)
    (starts : ∀ first rest, pieces = first :: rest → (Component.ofPiece? first).isSome = true) :
    components ⟨Text.joinOn '/' pieces⟩ = pieces.filterMap Component.ofPiece? := by
  cases pieces with
  | nil => rfl
  | cons first rest =>
      obtain ⟨component, stands⟩ := Option.isSome_iff_exists.mp (starts first rest rfl)
      have nonempty : first ≠ [] := by
        rintro rfl
        simp at stands
      have noDot : first ≠ ['.'] := by
        rintro rfl
        simp at stands
      rw [components, pieces_joinOn (List.cons_ne_nil first rest) whole,
        List.filterMap_cons_some stands]
      simp [startOf, nonempty, noDot, stands]

theorem startOf_congr
    (left right : Path)
    (alike : left.text = [] ↔ right.text = [])
    (first : Text) :
    left.startOf first = right.startOf first := by
  simp only [startOf, List.isEmpty_iff, alike]

/-- A path that is not empty starts with a component. -/
theorem exists_startOf_eq_some
    {path : Path}
    {first : Text}
    {rest : List Text}
    (cut : path.pieces = first :: rest)
    (nonempty : path.text ≠ []) :
    ∃ component, path.startOf first = some component := by
  unfold startOf
  split
  · exact ⟨.root, by simp [nonempty]⟩
  · next filled =>
      split
      · exact ⟨.current, rfl⟩
      · next noDot =>
          cases stands : Component.ofPiece? first with
          | some component => exact ⟨component, rfl⟩
          | none =>
              rcases Component.ofPiece?_eq_none_iff.mp stands with rfl | rfl
              · simp at filled
              · exact absurd rfl noDot

/-! ## Parts of a path -/

theorem components_of_pieces_eq
    {path : Path}
    {first : Text}
    {rest : List Text}
    (cut : path.pieces = first :: rest) :
    path.components = (path.startOf first).toList ++ rest.filterMap Component.ofPiece? := by
  rw [components, cut]

theorem joinOn_eq_nil_iff {first : Text} {others : List Text} :
    Text.joinOn '/' (first :: others) = [] ↔ first = [] ∧ others = [] := by
  cases others with
  | nil => simp [Text.joinOn]
  | cons next behind => simp [Text.joinOn, List.intercalate_cons_of_ne_nil]

theorem text_eq_nil_iff_of_relative
    {path : Path}
    {first : Text}
    {rest others : List Text}
    (relative : path.isAbsolute = false)
    (cut : path.pieces = first :: rest)
    (fewer : others <+: rest) :
    path.text = [] ↔ Text.joinOn '/' (first :: others) = [] := by
  rw [joinOn_eq_nil_iff]
  constructor
  · intro empty
    have single : path.pieces = [[]] := by rw [pieces, empty]; rfl
    obtain ⟨rfl, rfl⟩ := List.cons.inj (cut.symm.trans single)
    exact ⟨rfl, List.prefix_nil.mp fewer⟩
  · rintro ⟨firstEmpty, -⟩
    have absolute := isAbsolute_iff cut
    rw [relative] at absolute
    simpa [firstEmpty] using absolute

/-- What is left of a relative path behind the empty one has all its components. -/
theorem components_joinOn_trimLastPieces
    {path : Path}
    {first : Text}
    {rest : List Text}
    (relative : path.isAbsolute = false)
    (cut : path.pieces = first :: rest) :
    components ⟨Text.joinOn '/' (first :: trimLastPieces rest)⟩ = path.components := by
  have fewer := isPrefix_trimLastPieces rest
  have whole : ∀ piece ∈ first :: trimLastPieces rest, '/' ∉ piece := by
    intro piece present
    refine whole_of_pieces_eq cut piece ?_
    exact List.mem_cons.mpr ((List.mem_cons.mp present).imp_right fewer.mem)
  rw [components_of_pieces_eq (pieces_joinOn (List.cons_ne_nil _ _) whole),
    components_of_pieces_eq cut, filterMap_trimLastPieces,
    startOf_congr path ⟨Text.joinOn '/' (first :: trimLastPieces rest)⟩
      (text_eq_nil_iff_of_relative relative cut fewer)]

/-- What is left of a path behind another one has the components behind those of the other.
Only an absolute path does not start with the empty one. -/
theorem components_of_dropFront?
    {front path relative : Path}
    (rooted : front.components ≠ [] ∨ path.isAbsolute = false)
    (dropped : dropFront? front path = some relative) :
    path.components = front.components ++ relative.components := by
  simp only [dropFront?, List.isPrefixOf_iff_prefix] at dropped
  split at dropped
  · next starts =>
      cases cut : path.pieces with
      | nil => exact absurd cut path.pieces_ne_nil
      | cons first rest =>
          cases size : front.components with
          | nil =>
              have relativePath := rooted.resolve_left (not_not_intro size)
              simp only [size, cut, List.length_nil, Option.some.injEq] at dropped
              rw [← dropped, components_joinOn_trimLastPieces relativePath cut,
                List.nil_append]
          | cons start others =>
              simp only [size, cut, List.length_cons, Option.some.injEq] at dropped
              obtain ⟨behind, follows⟩ := starts
              have nonempty : path.text ≠ [] := by
                rw [Ne, ← components_eq_nil_iff, ← follows, size]
                simp
              obtain ⟨component, starting⟩ := exists_startOf_eq_some cut nonempty
              have whole :
                  ∀ piece ∈ trimLastPieces (dropComponents others.length rest), '/' ∉ piece := by
                intro piece present
                refine whole_of_pieces_eq cut piece (List.mem_cons_of_mem first ?_)
                exact (dropComponents_suffix _ _).mem ((isPrefix_trimLastPieces _).mem present)
              have starts (piece : Text) (pieces : List Text)
                  (left : trimLastPieces (dropComponents others.length rest) = piece :: pieces) :
                  (Component.ofPiece? piece).isSome = true := by
                obtain ⟨more, all⟩ := isPrefix_trimLastPieces (dropComponents others.length rest)
                rw [left, List.cons_append] at all
                exact isSome_of_dropComponents_eq_cons all.symm
              have all : component :: rest.filterMap Component.ofPiece? =
                  start :: (others ++ behind) := by
                rw [size, components, cut] at follows
                simpa [starting] using follows.symm
              rw [← dropped, components_joinOn whole starts, filterMap_trimLastPieces,
                filterMap_dropComponents, (List.cons.inj all).2, List.drop_left, ← follows, size,
                List.cons_append]
  · simp at dropped

/-- A path can be cut behind another one if it starts with its components. -/
theorem dropFront?_isSome_iff {front path : Path} :
    (dropFront? front path).isSome = true ↔ front.components <+: path.components := by
  simp only [dropFront?, List.isPrefixOf_iff_prefix]
  split
  · next starts =>
      simp only [starts, iff_true]
      split <;> rfl
  · next apart => simp [apart]

/-- A first piece and pieces without an empty last one are a path that starts as before. -/
theorem components_ofPieces
    {path : Path}
    {first : Text}
    {rest others : List Text}
    (cut : path.pieces = first :: rest)
    (nonempty : path.text ≠ [])
    (fewer : ∀ piece ∈ others, piece ∈ rest) :
    (ofPieces first others).components =
      (path.startOf first).toList ++ others.filterMap Component.ofPiece? := by
  unfold ofPieces
  split
  · next bare =>
      simp only [Bool.and_eq_true, List.isEmpty_iff] at bare
      obtain ⟨rfl, rfl⟩ := bare
      simp [startOf, nonempty]
      rfl
  · next filled =>
      have whole : ∀ piece ∈ first :: others, '/' ∉ piece := by
        intro piece present
        refine whole_of_pieces_eq cut piece ?_
        exact List.mem_cons.mpr ((List.mem_cons.mp present).imp_right (fewer piece))
      have joined : Text.joinOn '/' (first :: others) ≠ [] := by
        simpa [joinOn_eq_nil_iff] using filled
      have alike : Text.joinOn '/' (first :: others) = [] ↔ path.text = [] :=
        iff_of_false joined nonempty
      rw [components_of_pieces_eq (pieces_joinOn (List.cons_ne_nil _ _) whole),
        startOf_congr ⟨Text.joinOn '/' (first :: others)⟩ path alike]

/-- The path above a path has all its components but the last. -/
theorem components_of_parent?
    {path parent : Path}
    (above : path.parent? = some parent) :
    parent.components = path.components.dropLast := by
  unfold parent? at above
  split at above
  · simp at above
  · next first rest cut =>
      have trimmed := filterMap_trimPieces rest.reverse
      rw [List.filterMap_reverse] at trimmed
      split at above
      · next last others left =>
          obtain ⟨component, stands⟩ :=
            Option.isSome_iff_exists.mp (isSome_of_trimPieces_eq_cons left)
          rw [left, List.filterMap_cons_some stands] at trimmed
          have inRest (piece : Text) (present : piece ∈ last :: others) : piece ∈ rest :=
            List.mem_reverse.mp (mem_of_mem_trimPieces (left ▸ present))
          have nonempty : path.text ≠ [] := by
            intro empty
            have single : path.pieces = [[]] := by rw [pieces, empty]; rfl
            obtain ⟨-, rfl⟩ := List.cons.inj (cut.symm.trans single)
            simpa using inRest last List.mem_cons_self
          have fewer (piece : Text) (present : piece ∈ (trimPieces others).reverse) :
              piece ∈ rest :=
            inRest piece (List.mem_cons_of_mem last
              (mem_of_mem_trimPieces (List.mem_reverse.mp present)))
          rw [← Option.some.inj above, components_ofPieces cut nonempty fewer,
            components_of_pieces_eq cut, List.filterMap_reverse, filterMap_trimPieces,
            ← List.reverse_reverse (rest.filterMap Component.ofPiece?), ← trimmed,
            List.reverse_cons, ← List.append_assoc, List.dropLast_concat]
      · next left =>
          have nothing : rest.filterMap Component.ofPiece? = [] := by simpa [left] using trimmed
          rw [components_of_pieces_eq cut, nothing]
          split at above
          · simp at above
          · rw [← Option.some.inj above]
            cases path.startOf first <;> rfl

/-- Only the empty path and the root have no path above them. -/
theorem components_of_parent?_eq_none
    {path : Path}
    (top : path.parent? = none) :
    path.components = [] ∨ path.components = [.root] := by
  unfold parent? at top
  split at top
  · next cut => exact absurd cut path.pieces_ne_nil
  · next first rest cut =>
      split at top
      · simp at top
      · next left =>
          have nothing : rest.filterMap Component.ofPiece? = [] := by
            simpa [left] using filterMap_trimPieces rest.reverse
          rw [components_of_pieces_eq cut, nothing]
          split at top
          · next empty =>
              by_cases nowhere : path.text = []
              · exact .inl (by simp [startOf, empty, nowhere])
              · exact .inr (by simp [startOf, empty, nowhere])
          · simp at top

end Path
end FortranDocs
