import FortranDocs.Proofs.Inputs.Wildcards

/-!
# What is taken for granted of a search for files

A storage finds files in its own way.  What is stated about the inputs of a run holds for every
storage that searches soundly, `Discovery.Sound`: a file has a name, a walk meets what lies below
a directory, and the components of a match are those of its pattern, one by one.

The leading `.` of a pattern is no part of its matches.  A match starts with `.` only if it leads
up at once, by a pattern that does not say so: `Pattern.LeadsTo`.
-/

namespace FortranDocs

namespace Component

/-- Whether a component of a pattern has a wildcard and starts with a dot, so that it may stand for
a directory itself or for the one above it. -/
def isDotted : Component -> Bool
  | .name text => text.hasWildcard && text.head? == some '.'
  | _ => false

/-- Whether a component of a pattern may lead up. -/
def mayClimb : Component -> Bool
  | .parent => true
  | component => component.isDotted

/-- A wildcard behind a dot may lead up. -/
theorem mayClimb_of_isDotted {component : Component} (dotted : component.isDotted = true) :
    component.mayClimb = true := by
  cases component with
  | name text => exact dotted
  | _ => exact nomatch dotted

/-- A component without a wildcard has none behind a dot. -/
theorem not_isDotted_of_isFixed {component : Component} (plain : component.isFixed = true) :
    ¬ component.isDotted = true := by
  cases component with
  | name text => simp_all [isFixed, isDotted]
  | root | current | parent => exact Bool.false_ne_true

/-- The components of a pattern and those of a match. -/
inductive OneByOne : List Component -> List Component -> Prop
  /-- Both end together. -/
  | nil : OneByOne [] []
  /-- A component without wildcards stands for itself, `..` among them. -/
  | fixed {component : Component} {pattern path : List Component}
      (plain : component.isFixed = true)
      (further : OneByOne pattern path) :
      OneByOne (component :: pattern) (component :: path)
  /-- A component with a wildcard stands for a name. -/
  | name {component : Component} {name : Text} {pattern path : List Component}
      (wild : component.isFixed = false)
      (further : OneByOne pattern path) :
      OneByOne (component :: pattern) (.name name :: path)
  /-- A wildcard behind a dot stands for `..`. -/
  | parent {component : Component} {pattern path : List Component}
      (dotted : component.isDotted = true)
      (further : OneByOne pattern path) :
      OneByOne (component :: pattern) (.parent :: path)
  /-- A wildcard behind a dot stands for `.`, which is no component behind another one. -/
  | current {component : Component} {pattern path : List Component}
      (dotted : component.isDotted = true)
      (filled : path ≠ [])
      (further : OneByOne pattern path) :
      OneByOne (component :: pattern) path
  /-- Two stars stand for any number of directories, or for a name at the end. -/
  | directories {names : List Text} {pattern path : List Component}
      (filled : names.map .name ++ path ≠ [])
      (further : OneByOne pattern path) :
      OneByOne (.name ['*', '*'] :: pattern) (names.map .name ++ path)

/-- Components without a leading `.`. -/
def behindCurrent : List Component -> List Component
  | .current :: rest => rest
  | components => components

theorem behindCurrent_cons (components : List Component) :
    behindCurrent (.current :: components) = components := rfl

/-- Components that do not start with `.` are all behind it. -/
theorem behindCurrent_of_head?_ne
    {components : List Component}
    (starts : components.head? ≠ some .current) :
    behindCurrent components = components := by
  unfold behindCurrent
  split
  · exact absurd rfl starts
  · rfl

theorem head?_ne_current_of_inner
    {components : List Component}
    (inner : ∀ component ∈ components, component.isInner = true) :
    components.head? ≠ some .current :=
  fun starts => nomatch inner .current (List.mem_of_head? starts)

/-- Only the first of some components may be a leading `.`. -/
theorem behindCurrent_append
    {back : List Component}
    (front : List Component)
    (inner : ∀ component ∈ back, component.isInner = true) :
    behindCurrent (front ++ back) = behindCurrent front ++ back := by
  cases front with
  | nil => exact behindCurrent_of_head?_ne (head?_ne_current_of_inner inner)
  | cons first rest => cases first <;> rfl

theorem mem_of_mem_behindCurrent
    {component : Component}
    {components : List Component}
    (present : component ∈ behindCurrent components) :
    component ∈ components := by
  unfold behindCurrent at present
  split at present
  · exact List.mem_cons_of_mem .current present
  · exact present

end Component

/-- How the path of a file matches a pattern. -/
inductive Pattern.LeadsTo (text : Text) (path : Path) : Prop
  /-- Its components are those of the pattern one by one, without a leading `.`. -/
  | along
      (matched :
        Component.OneByOne (Component.behindCurrent (Path.mk text).components) path.components)
  /-- A wildcard behind a dot leads up from the working directory at once, and the match starts
  with `.`. -/
  | upward {component : Component} {pattern rest : List Component}
      (starts : Component.behindCurrent (Path.mk text).components = component :: pattern)
      (dotted : component.isDotted = true)
      (climbs : path.components = .current :: .parent :: rest)
      (matched : Component.OneByOne (component :: pattern) (.parent :: rest))

/-- What a search for files in a storage leads to. -/
structure Discovery.Sound {Store : Type} [Discovery Store] (store : Store) : Prop where
  /-- A path that leads to a file ends in a name. -/
  named :
    ∀ path : Path, Discovery.isFile store path = true → ∃ name, path.fileName? = some name
  /-- The empty path leads to no directory. -/
  somewhere : Discovery.isDirectory store ⟨[]⟩ = false
  /-- The files that a walk meets lie below the directory. -/
  walked :
    ∀ (depth : Option Nat) (directory : Path), ∀ entry : Walked,
      Discovery.isDirectory store directory = true →
      .ok entry ∈ Discovery.walk store depth directory → entry.isFile = true →
      ∃ names : List Text, names ≠ [] ∧
        entry.path.components = directory.components ++ names.map .name
  /-- The files among the matches of a pattern match it. -/
  matched :
    ∀ (text : Text) (found : List (Except Failure Path)), ∀ path : Path,
      Discovery.glob store text = .ok found → .ok path ∈ found →
      Discovery.isFile store path = true →
      Pattern.LeadsTo text path

end FortranDocs
