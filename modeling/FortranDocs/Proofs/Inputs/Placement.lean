import FortranDocs.Proofs.Inputs.Discovery
import FortranDocs.Proofs.Path.Parts

/-!
# The places of inputs

An input is placed by what follows the root under which it was found in its path, or else by
its name.  A named file is placed by its name, a file of a directory by the names that lead to
it there, and a match of a pattern by what follows the fixed part of the pattern:
`Pattern.Placed`.

The matches of a pattern that starts with `.` stand alone below the working directory, so that
they do not start with its fixed part and are placed by their names.  Only a match that leads up
from the working directory at once keeps the `.`.
-/

namespace FortranDocs
namespace SourceFile

variable {root path : Path} {rest : List Component} {name : Text}

/-- What follows the root places a file. -/
theorem components_relative_under
    (behind : path.components = root.components ++ rest)
    (rooted : root.components ≠ [] ∨ path.isAbsolute = false)
    (named : path.fileName? = some name) :
    (under root path).relative.components = if rest = [] then [.name name] else rest := by
  have fileName := Path.isFileName_of_fileName? named
  have starts : root.components <+: path.components := ⟨rest, behind.symm⟩
  obtain ⟨relative, dropped⟩ :=
    Option.isSome_iff_exists.mp (Path.dropFront?_isSome_iff.mpr starts)
  have follows : relative.components = rest := by
    have all := Path.components_of_dropFront? rooted dropped
    rw [behind] at all
    exact (List.append_cancel_left all).symm
  have nothing : relative.text.isEmpty = true ↔ rest = [] := by
    rw [List.isEmpty_iff, ← Path.components_eq_nil_iff, follows]
  simp only [under, dropped, nothing]
  split
  · simp [named, Path.components_of_isFileName fileName]
  · exact follows

/-- A file whose path does not start with the root is placed by its name. -/
theorem components_relative_under_of_apart
    (apart : ¬ root.components <+: path.components)
    (named : path.fileName? = some name) :
    (under root path).relative.components = [.name name] := by
  have fileName := Path.isFileName_of_fileName? named
  have dropped : Path.dropFront? root path = none := by
    rw [← Option.not_isSome_iff_eq_none, Path.dropFront?_isSome_iff]
    exact apart
  simp [under, dropped, named, Path.components_of_isFileName fileName]

theorem path_under (root path : Path) : (under root path).path = path := by
  unfold under
  dsimp only
  split <;> rfl

/-- A file that is named is placed by its name. -/
theorem components_relative_of_named
    (named : path.fileName? = some name) :
    (under (path.parent?.getD ⟨[]⟩) path).relative.components = [.name name] := by
  obtain ⟨front, ends⟩ := Path.fileName?_eq_some_iff.mp named
  have above : (path.parent?.getD ⟨[]⟩).components = front := by
    cases parent : path.parent? with
    | some directory =>
        rw [Option.getD_some, Path.components_of_parent? parent, ends, List.dropLast_concat]
    | none =>
        rcases Path.components_of_parent?_eq_none parent with nowhere | top
        · simp [nowhere] at ends
        · rw [top] at ends
          have last := congrArg List.getLast? ends
          simp at last
  have rooted : (path.parent?.getD ⟨[]⟩).components ≠ [] ∨ path.isAbsolute = false := by
    rw [above]
    cases front with
    | nil => exact .inr (Path.isAbsolute_eq_false_of_root_not_mem (by simp [ends]))
    | cons first others => exact .inl (List.cons_ne_nil first others)
  rw [components_relative_under (by rw [above, ends]) rooted named,
    if_neg (List.cons_ne_nil _ _)]

end SourceFile

namespace Inputs

variable
  {Store : Type}
  [Discovery Store]
  {store : Store}
  {extensions : List Text}
  {recursive : Bool}
  {directory : Path}
  {file : SourceFile}
  {files : List SourceFile}

theorem exists_of_mem_ofWalk
    {entries : List (Except Failure Walked)}
    (walked : ofWalk extensions directory entries = .ok files)
    (present : file ∈ files) :
    ∃ entry : Walked, .ok entry ∈ entries ∧ entry.isFile = true ∧
      file = SourceFile.under directory entry.path := by
  induction entries generalizing files with
  | nil =>
      obtain rfl := Except.ok.inj walked
      exact nomatch present
  | cons entry rest inductionHypothesis =>
      cases entry with
      | error cause => exact nomatch walked
      | ok entry =>
          rw [ofWalk] at walked
          cases behind : ofWalk extensions directory rest with
          | error cause =>
              rw [behind] at walked
              exact nomatch walked
          | ok others =>
              rw [behind] at walked
              obtain rfl := Except.ok.inj walked
              have further (inOthers : file ∈ others) :=
                (inductionHypothesis behind inOthers).imp
                  fun other => And.imp_left (List.mem_cons_of_mem (.ok entry))
              dsimp only at present
              split at present
              · next kept =>
                  rcases List.mem_cons.mp present with rfl | inOthers
                  · exact ⟨entry, List.mem_cons_self, (Bool.and_eq_true_iff.mp kept).1, rfl⟩
                  · exact further inOthers
              · exact further present

/-- A file of a directory is placed by the names that lead to it there. -/
theorem components_relative_of_mem_ofDirectory
    (sound : Discovery.Sound store)
    (inside : Discovery.isDirectory store directory = true)
    (listed : ofDirectory store extensions recursive directory = .ok files)
    (present : file ∈ files) :
    ∃ names : List Text, names ≠ [] ∧ file.relative.components = names.map .name := by
  unfold ofDirectory at listed
  dsimp only at listed
  split at listed
  · exact nomatch listed
  · next others walked =>
      obtain rfl := Except.ok.inj listed
      obtain ⟨entry, met, isFile, rfl⟩ := exists_of_mem_ofWalk walked present
      obtain ⟨names, filled, behind⟩ := sound.walked _ _ entry inside met isFile
      refine ⟨names, filled, ?_⟩
      have somewhere : directory.components ≠ [] := by
        intro nothing
        obtain ⟨text⟩ := directory
        obtain rfl := Path.components_eq_nil_iff.mp nothing
        exact Bool.false_ne_true (sound.somewhere.symm.trans inside)
      obtain ⟨front, last, rfl⟩ : ∃ front last, names = front ++ [last] :=
        ⟨_, _, (List.dropLast_concat_getLast filled).symm⟩
      have named : entry.path.fileName? = some last :=
        Path.fileName?_eq_some_iff.mpr
          ⟨directory.components ++ front.map .name, by simpa using behind⟩
      rw [SourceFile.components_relative_under behind (.inl somewhere) named,
        if_neg (by simp)]

end Inputs

/-! ## Matches of patterns -/

namespace Component

variable {pattern front path : List Component}

/-- A match starts like its pattern as long as there is no wildcard. -/
theorem OneByOne.exists_of_fixed
    (fixed : ∀ component ∈ front, component.isFixed = true)
    (matched : OneByOne (front ++ pattern) path) :
    ∃ rest, path = front ++ rest ∧ OneByOne pattern rest := by
  induction front generalizing path with
  | nil => exact ⟨path, rfl, matched⟩
  | cons component front inductionHypothesis =>
      obtain ⟨plain, fixedRest⟩ := List.forall_mem_cons.mp fixed
      cases matched with
      | fixed _ further =>
          obtain ⟨rest, rfl, behind⟩ := inductionHypothesis fixedRest further
          exact ⟨rest, rfl, behind⟩
      | name wild => exact nomatch plain.symm.trans wild
      | parent dotted => exact absurd dotted (not_isDotted_of_isFixed plain)
      | current dotted => exact absurd dotted (not_isDotted_of_isFixed plain)
      | directories => exact nomatch plain

/-- Only the empty pattern matches nothing. -/
theorem OneByOne.eq_nil (matched : OneByOne pattern []) : pattern = [] := by
  generalize nothing : ([] : List Component) = path at matched
  cases matched with
  | nil => rfl
  | current _ filled => exact absurd nothing.symm filled
  | directories filled => exact absurd nothing.symm filled
  | _ => exact nomatch nothing

theorem OneByOne.eq_nil_of_nil (matched : OneByOne [] path) : path = [] := by
  cases matched
  rfl

/-- A match of what may stand behind a start may stand there too. -/
theorem OneByOne.inner
    (matched : OneByOne pattern path)
    (inner : ∀ component ∈ pattern, component.isInner = true) :
    ∀ component ∈ path, component.isInner = true := by
  induction matched with
  | nil => exact inner
  | fixed plain further inductionHypothesis =>
      obtain ⟨first, rest⟩ := List.forall_mem_cons.mp inner
      exact List.forall_mem_cons.mpr ⟨first, inductionHypothesis rest⟩
  | name | parent =>
      rename_i inductionHypothesis
      exact List.forall_mem_cons.mpr ⟨rfl, inductionHypothesis (List.forall_mem_cons.mp inner).2⟩
  | current dotted filled further inductionHypothesis =>
      exact inductionHypothesis (List.forall_mem_cons.mp inner).2
  | directories filled further inductionHypothesis =>
      refine List.forall_mem_append.mpr ⟨?_, inductionHypothesis (List.forall_mem_cons.mp inner).2⟩
      simp [isInner]

/-- A match leads up only by a component of the pattern that may. -/
theorem OneByOne.exists_mayClimb
    (matched : OneByOne pattern path)
    (up : .parent ∈ path) :
    ∃ component ∈ pattern, component.mayClimb = true := by
  induction matched with
  | nil => exact nomatch up
  | @fixed component pattern path plain further inductionHypothesis =>
      rcases List.mem_cons.mp up with rfl | inRest
      · exact ⟨.parent, List.mem_cons_self, rfl⟩
      · obtain ⟨other, present, climbs⟩ := inductionHypothesis inRest
        exact ⟨other, List.mem_cons_of_mem _ present, climbs⟩
  | name wild further inductionHypothesis =>
      have inRest := (List.mem_cons.mp up).resolve_left nofun
      obtain ⟨other, present, climbs⟩ := inductionHypothesis inRest
      exact ⟨other, List.mem_cons_of_mem _ present, climbs⟩
  | parent dotted | current dotted =>
      exact ⟨_, List.mem_cons_self, mayClimb_of_isDotted dotted⟩
  | directories filled further inductionHypothesis =>
      have inRest := (List.mem_append.mp up).resolve_left (by simp)
      obtain ⟨other, present, climbs⟩ := inductionHypothesis inRest
      exact ⟨other, List.mem_cons_of_mem _ present, climbs⟩

end Component

namespace Pattern

/-- The components of a pattern from the first one with a wildcard on. -/
def wildComponents (text : Text) : List Component :=
  (Path.mk text).components.dropWhile Component.isFixed

theorem fixedPart_append_wildComponents (text : Text) :
    (fixedPart text).components ++ wildComponents text = (Path.mk text).components := by
  rw [components_fixedPart, wildComponents, List.takeWhile_append_dropWhile]

theorem isFixed_of_mem_fixedPart
    {text : Text}
    {component : Component}
    (present : component ∈ (fixedPart text).components) :
    component.isFixed = true := by
  rw [components_fixedPart] at present
  exact List.all_eq_true.mp List.all_takeWhile component present

theorem isInner_of_mem_wildComponents
    {text : Text}
    (component : Component)
    (present : component ∈ wildComponents text) :
    component.isInner = true := by
  have anchored : wildComponents text = (Component.ofText text).dropWhile Component.isFixed := by
    rw [wildComponents, Path.components_eq, List.dropWhile_append_of_pos]
    intro other inAnchor
    rcases Path.eq_root_or_eq_current_of_mem_anchor inAnchor with rfl | rfl <;> rfl
  rw [anchored] at present
  exact Component.isInner_of_mem_ofText ((List.dropWhile_sublist _).mem present)

theorem isInner_of_mem_tail_fixedPart
    {text : Text}
    {first : Component}
    {rest : List Component}
    (fixed : (fixedPart text).components = first :: rest)
    (component : Component)
    (present : component ∈ rest) :
    component.isInner = true := by
  have inTail : component ∈ (Path.mk text).components.tail := by
    rw [← fixedPart_append_wildComponents, fixed, List.cons_append, List.tail_cons]
    exact List.mem_append_left _ present
  exact Component.isInner_of_mem_ofText (Path.mem_ofText_of_mem_tail inTail)

theorem behindCurrent_components (text : Text) :
    Component.behindCurrent (Path.mk text).components =
      Component.behindCurrent (fixedPart text).components ++ wildComponents text := by
  rw [← fixedPart_append_wildComponents]
  exact Component.behindCurrent_append _ isInner_of_mem_wildComponents

/-- Whether a pattern has a component that may lead up, behind its leading components without
wildcards. -/
def MayClimb (text : Text) : Prop :=
  ∃ component ∈ wildComponents text, component.mayClimb = true

/-- Whether a path does not start with the `.` with which a pattern starts. -/
def LosesDot (text : Text) (path : Path) : Prop :=
  (fixedPart text).components.head? = some .current ∧ path.components.head? ≠ some .current

instance (text : Text) (path : Path) : Decidable (LosesDot text path) :=
  inferInstanceAs (Decidable (_ ∧ _))

/-- The components of a pattern without wildcards at its start, as they are found again in the
path of a match. -/
def frontOf (text : Text) (path : Path) : List Component :=
  if LosesDot text path then
    (fixedPart text).components.tail
  else
    (fixedPart text).components

/-- How a pattern places a match: by what is behind the leading components without wildcards. -/
structure Placed (text : Text) (path : Path) (rest : List Component) : Prop where
  /-- The rest of the path. -/
  behind : path.components = frontOf text path ++ rest
  /-- The rest is made of names, unless it leads up. -/
  names : .parent ∈ rest ∨ ∀ component ∈ rest, component.isName = true
  /-- The rest does not start at the root. -/
  relative : .root ∉ rest
  /-- The rest leads up by a component of the pattern that may. -/
  climbs : .parent ∈ rest → MayClimb text
  /-- There is a rest unless the pattern has no wildcards. -/
  stays : rest = [] → wildComponents text = []
  /-- Behind a `.` that is not lost the rest leads up at once. -/
  upward :
    (fixedPart text).components.head? = some .current → ¬ LosesDot text path →
      rest = [] ∨ rest.head? = some .parent

variable {text : Text} {path : Path} {rest : List Component}

theorem frontOf_of_head?_ne
    (starts : (fixedPart text).components.head? ≠ some .current) :
    frontOf text path = (fixedPart text).components :=
  if_neg fun lost => starts lost.1

theorem frontOf_of_current
    {names : List Component}
    (fixed : (fixedPart text).components = .current :: names)
    (starts : path.components.head? ≠ some .current) :
    frontOf text path = names := by
  have lost : LosesDot text path := ⟨by rw [fixed]; rfl, starts⟩
  rw [frontOf, if_pos lost, fixed]
  rfl

theorem Placed.of_inner
    (behind : path.components = frontOf text path ++ rest)
    (inner : ∀ component ∈ rest, component.isInner = true)
    (climbs : .parent ∈ rest → MayClimb text)
    (stays : rest = [] → wildComponents text = [])
    (upward :
      (fixedPart text).components.head? = some .current → ¬ LosesDot text path →
        rest = [] ∨ rest.head? = some .parent) :
    Placed text path rest where
  behind := behind
  names := by
    by_cases up : .parent ∈ rest
    · exact .inl up
    · refine .inr fun component present => ?_
      have valid := inner component present
      cases component with
      | name text => rfl
      | parent => exact absurd present up
      | _ => exact nomatch valid
  relative := fun present => nomatch inner .root present
  climbs := climbs
  stays := stays
  upward := upward

theorem not_losesDot_of_isPrefix
    (starts : (fixedPart text).components <+: path.components) :
    ¬ LosesDot text path := by
  rintro ⟨dot, lost⟩
  refine lost ?_
  obtain ⟨rest, all⟩ := starts
  rw [← all, List.head?_append, dot, Option.some_or]

/-- The place of a match, by what is behind the fixed part. -/
theorem Placed.components_relative
    {name : Text}
    (placed : Placed text path rest)
    (named : path.fileName? = some name) :
    (SourceFile.under (fixedPart text) path).relative.components =
      if LosesDot text path ∨ rest = [] then [.name name] else rest := by
  have behind := placed.behind
  by_cases lost : LosesDot text path
  · rw [if_pos (.inl lost)]
    exact SourceFile.components_relative_under_of_apart
      (fun starts => not_losesDot_of_isPrefix starts lost) named
  · rw [frontOf, if_neg lost] at behind
    have rooted : (fixedPart text).components ≠ [] ∨ path.isAbsolute = false := by
      by_cases unfixed : (fixedPart text).components = []
      · refine .inr (Path.isAbsolute_eq_false_of_root_not_mem ?_)
        rw [behind, unfixed]
        exact placed.relative
      · exact .inl unfixed
    simp only [lost, false_or]
    exact SourceFile.components_relative_under behind rooted named

/-- A match along a pattern starts with the fixed part, or with all of it but a leading `.`. -/
theorem exists_placed_of_along
    (matched : Component.OneByOne (Component.behindCurrent (Path.mk text).components)
      path.components) :
    ∃ rest, Placed text path rest := by
  rw [behindCurrent_components] at matched
  obtain ⟨rest, behind, further⟩ := matched.exists_of_fixed fun component present =>
    isFixed_of_mem_fixedPart (Component.mem_of_mem_behindCurrent present)
  have inner := further.inner isInner_of_mem_wildComponents
  have stays (nothing : rest = []) : wildComponents text = [] := (nothing ▸ further).eq_nil
  by_cases dot : (fixedPart text).components.head? = some .current
  · obtain ⟨names, fixed⟩ := List.head?_eq_some_iff.mp dot
    rw [fixed, Component.behindCurrent_cons] at behind
    have starts : path.components.head? ≠ some .current := by
      rw [behind]
      refine Component.head?_ne_current_of_inner (List.forall_mem_append.mpr ⟨?_, inner⟩)
      exact isInner_of_mem_tail_fixedPart fixed
    refine ⟨rest, .of_inner ?_ inner further.exists_mayClimb stays
      fun dot kept => absurd ⟨dot, starts⟩ kept⟩
    rw [frontOf_of_current fixed starts, behind]
  · rw [Component.behindCurrent_of_head?_ne dot] at behind
    refine ⟨rest, .of_inner ?_ inner further.exists_mayClimb stays fun starts => absurd starts dot⟩
    rw [frontOf_of_head?_ne dot, behind]

/-- A match that leads up at once comes from a pattern whose fixed part is at most a `.`. -/
theorem exists_placed_of_upward
    {component : Component}
    {pattern taken : List Component}
    (starts : Component.behindCurrent (Path.mk text).components = component :: pattern)
    (dotted : component.isDotted = true)
    (climbs : path.components = .current :: .parent :: taken)
    (matched : Component.OneByOne (component :: pattern) (.parent :: taken)) :
    ∃ rest, Placed text path rest := by
  rw [behindCurrent_components] at starts
  have unfixed : Component.behindCurrent (fixedPart text).components = [] := by
    cases fixed : Component.behindCurrent (fixedPart text).components with
    | nil => rfl
    | cons first others =>
        rw [fixed] at starts
        obtain ⟨rfl, -⟩ := List.cons.inj starts
        have present : first ∈ Component.behindCurrent (fixedPart text).components :=
          fixed ▸ List.mem_cons_self
        exact absurd dotted (Component.not_isDotted_of_isFixed
          (isFixed_of_mem_fixedPart (Component.mem_of_mem_behindCurrent present)))
  rw [unfixed, List.nil_append] at starts
  have mayClimb : MayClimb text :=
    ⟨component, starts ▸ List.mem_cons_self, Component.mayClimb_of_isDotted dotted⟩
  have inner := matched.inner (starts ▸ isInner_of_mem_wildComponents)
  by_cases dot : (fixedPart text).components.head? = some .current
  · obtain ⟨names, fixed⟩ := List.head?_eq_some_iff.mp dot
    rw [fixed, Component.behindCurrent_cons] at unfixed
    have kept : ¬ LosesDot text path := fun lost => lost.2 (by rw [climbs]; rfl)
    refine ⟨.parent :: taken, .of_inner ?_ inner (fun _ => mayClimb)
      (fun nothing => absurd nothing (List.cons_ne_nil _ _)) fun _ _ => .inr rfl⟩
    rw [frontOf, if_neg kept, fixed, unfixed, climbs]
    rfl
  · rw [Component.behindCurrent_of_head?_ne dot] at unfixed
    exact ⟨.current :: .parent :: taken,
      { behind := by rw [frontOf_of_head?_ne dot, unfixed, climbs, List.nil_append]
        names := .inl (by simp)
        relative := by
          intro present
          have root := (List.mem_cons.mp present).resolve_left nofun
          exact nomatch inner .root root
        climbs := fun _ => mayClimb
        stays := fun nothing => absurd nothing (List.cons_ne_nil _ _)
        upward := fun starts => absurd starts dot }⟩

/-- Every file that matches a pattern is placed by it. -/
theorem LeadsTo.exists_placed (leads : LeadsTo text path) : ∃ rest, Placed text path rest := by
  cases leads with
  | along matched => exact exists_placed_of_along matched
  | upward starts dotted climbs matched =>
      exact exists_placed_of_upward starts dotted climbs matched

/-- A pattern without wildcards leads to one path. -/
theorem LeadsTo.components_eq_of_fixed
    (leads : LeadsTo text path)
    (fixed : wildComponents text = []) :
    path.components = Component.behindCurrent (fixedPart text).components := by
  have all := behindCurrent_components text
  rw [fixed, List.append_nil] at all
  have plain : ∀ component ∈ Component.behindCurrent (Path.mk text).components,
      component.isFixed = true := by
    rw [all]
    exact fun component present =>
      isFixed_of_mem_fixedPart (Component.mem_of_mem_behindCurrent present)
  cases leads with
  | along matched =>
      rw [← List.append_nil (Component.behindCurrent _)] at matched
      obtain ⟨rest, behind, further⟩ := matched.exists_of_fixed plain
      rw [behind, all, further.eq_nil_of_nil, List.append_nil]
  | upward starts dotted =>
      exact absurd dotted
        (Component.not_isDotted_of_isFixed (plain _ (starts ▸ List.mem_cons_self)))

end Pattern

namespace Inputs

variable
  {Store : Type}
  [Discovery Store]
  {store : Store}
  {text : Text}
  {file : SourceFile}
  {files : List SourceFile}

/-- The files of a pattern are its matches that are files. -/
theorem exists_of_mem_ofPattern
    (found : ofPattern store text = .ok files)
    (present : file ∈ files) :
    ∃ entries, Discovery.glob store text = .ok entries ∧ .ok file.path ∈ entries ∧
      Discovery.isFile store file.path = true ∧
      file = SourceFile.under (Pattern.fixedPart text) file.path := by
  unfold ofPattern at found
  split at found
  · exact nomatch found
  · next entries globbed =>
      obtain rfl := Except.ok.inj found
      obtain ⟨path, kept, rfl⟩ := List.mem_map.mp present
      obtain ⟨inPaths, leadsToFile⟩ := List.mem_filter.mp kept
      obtain ⟨entry, inMatches, readable⟩ := List.mem_filterMap.mp inPaths
      rw [SourceFile.path_under]
      cases entry with
      | error cause => exact nomatch readable
      | ok path =>
          obtain rfl := Option.some.inj readable
          exact ⟨entries, globbed, inMatches, leadsToFile, rfl⟩

/-- Every file of a pattern is placed by it. -/
theorem placed_of_mem_ofPattern
    (sound : Discovery.Sound store)
    (found : ofPattern store text = .ok files)
    (present : file ∈ files) :
    ∃ rest name, Pattern.Placed text file.path rest ∧ file.path.fileName? = some name ∧
      file = SourceFile.under (Pattern.fixedPart text) file.path := by
  obtain ⟨entries, globbed, matched, leadsToFile, under⟩ := exists_of_mem_ofPattern found present
  obtain ⟨rest, placed⟩ := (sound.matched _ _ _ globbed matched leadsToFile).exists_placed
  obtain ⟨name, named⟩ := sound.named _ leadsToFile
  exact ⟨rest, name, placed, named, under⟩

end Inputs
end FortranDocs
