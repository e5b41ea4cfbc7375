import FortranDocs.Inputs
import FortranDocs.Proofs.Path.Components

/-!
# The part of a pattern without wildcards

The components with which a pattern starts and that hold no wildcard make up its fixed part,
`Pattern.components_fixedPart`.  The files that match are looked for below it.
-/

namespace FortranDocs

/-- Whether a text holds a wildcard. -/
def Text.hasWildcard (text : Text) : Bool :=
  text.any fun character => character ∈ ['*', '?', '[']

theorem Text.hasWildcard_cons (character : Char) (rest : Text) :
    Text.hasWildcard (character :: rest) =
      (decide (character ∈ ['*', '?', '[']) || Text.hasWildcard rest) := rfl

/-- Whether a component of a pattern holds no wildcard. -/
def Component.isFixed : Component -> Bool
  | .name text => !text.hasWildcard
  | _ => true

namespace Pattern

/-- A path with one more component. -/
def extendBy (path : Path) : Component -> Path
  | .root => ⟨['/']⟩
  | .current => path.child ['.']
  | .parent => path.child ['.', '.']
  | .name text => path.child text

theorem fixedPart_eq (text : Text) :
    fixedPart text =
      ((Path.mk text).components.takeWhile Component.isFixed).foldl extendBy ⟨[]⟩ := rfl

/-- A path with one more component has it behind its own. -/
theorem components_extendBy
    {path : Path}
    {component : Component}
    (nonempty : path.text ≠ [])
    (inner : component.isInner = true)
    (fileName : ∀ name, component = .name name → IsFileName name) :
    (extendBy path component).components = path.components ++ [component] := by
  cases component with
  | parent => exact Path.components_child nonempty (by decide)
  | name text =>
      have named := fileName text rfl
      rw [extendBy, Path.components_child nonempty named.2, named.1]
      rfl
  | _ => exact nomatch inner

/-- A path with more components has them behind its own. -/
theorem components_foldl_extendBy
    {path : Path}
    {components : List Component}
    (nonempty : path.text ≠ [])
    (inner : ∀ component ∈ components, component.isInner = true)
    (fileNames : ∀ name, .name name ∈ components → IsFileName name) :
    (components.foldl extendBy path).components = path.components ++ components := by
  have all : (components.foldl extendBy path).components =
      path.components ++ components.map id := by
    refine Path.components_foldl (fun component present directory filled => ?_) nonempty
    exact components_extendBy filled (inner component present)
      fun name named => fileNames name (named ▸ present)
  rwa [List.map_id] at all

theorem components_extendBy_nil
    {component : Component}
    (valid : ∀ name, component = .name name → IsFileName name) :
    (extendBy ⟨[]⟩ component).components = [component] := by
  cases component with
  | name text =>
      rw [extendBy, Path.child, Path.nil_join]
      exact Path.components_of_isFileName (valid text rfl)
  | _ => rfl

/-- The fixed part of a pattern has the leading components without wildcards. -/
theorem components_fixedPart (text : Text) :
    (fixedPart text).components =
      (Path.mk text).components.takeWhile Component.isFixed := by
  rw [fixedPart_eq]
  have part := List.takeWhile_prefix (l := (Path.mk text).components) Component.isFixed
  cases fixed : (Path.mk text).components.takeWhile Component.isFixed with
  | nil => rfl
  | cons first rest =>
      rw [fixed] at part
      have start : (extendBy ⟨[]⟩ first).components = [first] :=
        components_extendBy_nil fun name named =>
          Path.isFileName_of_mem_components (named ▸ part.mem List.mem_cons_self)
      have nonempty : (extendBy ⟨[]⟩ first).text ≠ [] := by
        rw [Ne, ← Path.components_eq_nil_iff, start]
        simp
      have inTail (component : Component) (present : component ∈ rest) :
          component ∈ (Path.mk text).components.tail := by
        obtain ⟨behind, all⟩ := part
        rw [← all, List.cons_append, List.tail_cons]
        exact List.mem_append_left behind present
      rw [List.foldl_cons, components_foldl_extendBy nonempty, start, List.singleton_append]
      · exact fun component present =>
          Component.isInner_of_mem_ofText (Path.mem_ofText_of_mem_tail (inTail component present))
      · exact fun name present =>
          Path.isFileName_of_mem_components (List.mem_of_mem_tail (inTail _ present))

end Pattern
end FortranDocs
