import FortranDocs.Proofs.FileTree
import FortranDocs.Proofs.FileTree.Patterns
import FortranDocs.Proofs.Inputs.Discovery

/-!
# What patterns lead to

`FileTree.Matches` says by one rule for each kind of pattern how patterns lead from one path to
another, and `FileTree.mem_matching_iff` states that these are the paths that are listed.

A match goes on behind the path at which matching starts, or stands alone if that path is the
working directory `.`: `Path.Follows`.  In a well-formed tree the components of a match that is a
file are those of its pattern, one by one: `FileTree.WellFormed.exists_led`.
-/

namespace FortranDocs
namespace FileTree

/-- Patterns, one for each component, that lead from a scope to a path. -/
inductive Matches (tree : FileTree) : List Pattern -> Path -> Path -> Prop
  | stop (scope : Path) : Matches tree [] scope scope
  | dots {pattern : Pattern} {rest : List Pattern} {scope path : Path} {name : Text}
      (literal : pattern.literal? = some name)
      (dotted : name = ['.'] ∨ name = ['.', '.'])
      (inside : tree.isDirectory scope = true)
      (goesOn : Matches tree rest (pathBelow scope name) path) :
      Matches tree (pattern :: rest) scope path
  | named {pattern : Pattern} {rest : List Pattern} {scope path : Path} {name : Text}
      (literal : pattern.literal? = some name)
      (undotted : ¬ (name = ['.'] ∨ name = ['.', '.']))
      (has : tree.hasEntry (pathBelow scope name) = true)
      (goesOn : Matches tree rest (pathBelow scope name) path) :
      Matches tree (pattern :: rest) scope path
  | directories {pattern : Pattern} {rest : List Pattern} {scope path : Path}
      (wild : pattern.literal? = none)
      (inside : tree.isDirectory scope = true)
      (recursive : pattern.isRecursive = true)
      (final : rest.dropWhile Pattern.isRecursive = [])
      (below : path ∈ tree.pathsBelow tree.depthLimit scope)
      (directory : tree.isDirectory path = true) :
      Matches tree (pattern :: rest) scope path
  | deep {pattern next : Pattern} {rest others : List Pattern} {scope found path : Path}
      (wild : pattern.literal? = none)
      (inside : tree.isDirectory scope = true)
      (recursive : pattern.isRecursive = true)
      (goal : rest.dropWhile Pattern.isRecursive = next :: others)
      (below : found ∈ tree.pathsBelow tree.depthLimit scope)
      (described : describesName next found = true)
      (goesOn : Matches tree others found path) :
      Matches tree (pattern :: rest) scope path
  | child {pattern : Pattern} {rest : List Pattern} {scope path : Path} {name : Text}
      (wild : pattern.literal? = none)
      (inside : tree.isDirectory scope = true)
      (shallow : pattern.isRecursive = false)
      (present : name ∈ tree.children scope)
      (described : describesName pattern (pathBelow scope name) = true)
      (goesOn : Matches tree rest (pathBelow scope name) path) :
      Matches tree (pattern :: rest) scope path
  | special {pattern : Pattern} {rest : List Pattern} {scope path : Path} {name : Text}
      (wild : pattern.literal? = none)
      (inside : tree.isDirectory scope = true)
      (shallow : pattern.isRecursive = false)
      (starts : pattern.head? = some (.letter '.'))
      (dotted : name = ['.'] ∨ name = ['.', '.'])
      (described : pattern.describes name = true)
      (goesOn : Matches tree rest (scope.child name) path) :
      Matches tree (pattern :: rest) scope path

variable {tree : FileTree}

/-- The paths that a pattern may stand for which starts with a dot: the directory itself and the
one above it. -/
def dottedBelow (pattern : Pattern) (scope : Path) : List Path :=
  if pattern.head? = some (.letter '.') then
    ([['.'], ['.', '.']].filter pattern.describes).map scope.child
  else
    []

theorem mem_dottedBelow_iff {pattern : Pattern} {scope path : Path} :
    path ∈ dottedBelow pattern scope ↔
      pattern.head? = some (.letter '.') ∧
        ∃ name, (name = ['.'] ∨ name = ['.', '.']) ∧ pattern.describes name = true ∧
          path = scope.child name := by
  unfold dottedBelow
  split
  · next starts =>
      simp only [starts, true_and, List.mem_map, List.mem_filter, List.mem_cons,
        List.not_mem_nil, or_false, and_assoc, eq_comm (b := path)]
  · next other => simp [other]

theorem matching_of_literal
    {pattern : Pattern}
    {name : Text}
    (literal : pattern.literal? = some name)
    (rest : List Pattern)
    (scope : Path) :
    tree.matching (pattern :: rest) scope =
      if (if name = ['.'] ∨ name = ['.', '.'] then tree.isDirectory scope
          else tree.hasEntry (pathBelow scope name)) then
        tree.matching rest (pathBelow scope name)
      else
        [] := by
  rw [matching, literal]

theorem matching_of_shallow
    {pattern : Pattern}
    {scope : Path}
    (wild : pattern.literal? = none)
    (inside : tree.isDirectory scope = true)
    (shallow : pattern.isRecursive = false)
    (rest : List Pattern) :
    tree.matching (pattern :: rest) scope =
      ((((tree.children scope).map (pathBelow scope)).filter (describesName pattern)) ++
        dottedBelow pattern scope).flatMap (tree.matching rest) := by
  rw [matching, wild]
  simp only [inside, shallow, Bool.not_true, Bool.false_eq_true, if_false]
  rfl

/-- The paths listed for patterns are those that they lead to. -/
theorem mem_matching_iff {patterns : List Pattern} {scope path : Path} :
    path ∈ tree.matching patterns scope ↔ tree.Matches patterns scope path := by
  constructor
  · intro present
    fun_induction matching tree patterns scope generalizing path with
    | case1 scope =>
        rw [List.mem_singleton.mp present]
        exact .stop scope
    | case2 scope pattern rest name literal next found has =>
        rename_i inductionHypothesis
        by_cases dotted : name = ['.'] ∨ name = ['.', '.']
        · have inside : tree.isDirectory scope = true := (dif_pos dotted).symm.trans has
          exact .dots literal dotted inside (inductionHypothesis present)
        · have entry : tree.hasEntry next = true := (dif_neg dotted).symm.trans has
          exact .named literal dotted entry (inductionHypothesis present)
    | case3 | case4 => exact absurd present List.not_mem_nil
    | case5 scope pattern rest wild inside recursive paths =>
        rename_i final
        obtain ⟨below, directory⟩ := List.mem_filter.mp present
        exact .directories wild (by simpa using inside) recursive final below directory
    | case6 scope pattern rest wild inside recursive paths next others goal =>
        rename_i inductionHypothesis
        obtain ⟨found, kept, onward⟩ := List.mem_flatMap.mp present
        obtain ⟨below, described⟩ := List.mem_filter.mp kept
        exact .deep wild (by simpa using inside) recursive goal below described
          (inductionHypothesis found onward)
    | case7 scope pattern rest wild inside shallow paths special =>
        rename_i inductionHypothesis
        obtain ⟨next, found, onward⟩ := List.mem_flatMap.mp present
        have goesOn := inductionHypothesis next onward
        rcases List.mem_append.mp found with kept | alone
        · obtain ⟨below, described⟩ := List.mem_filter.mp kept
          obtain ⟨name, child, rfl⟩ := List.mem_map.mp below
          exact .child wild (by simpa using inside) (by simpa using shallow) child described
            goesOn
        · obtain ⟨starts, name, dotted, described, rfl⟩ := mem_dottedBelow_iff.mp alone
          exact .special wild (by simpa using inside) (by simpa using shallow) starts dotted
            described goesOn
  · intro leads
    induction leads with
    | stop scope => rw [matching, List.mem_singleton]
    | dots literal dotted inside goesOn inductionHypothesis =>
        rwa [matching_of_literal literal, if_pos dotted, if_pos inside]
    | named literal undotted has goesOn inductionHypothesis =>
        rwa [matching_of_literal literal, if_neg undotted, if_pos has]
    | directories wild inside recursive final below directory =>
        rw [matching, wild]
        simp only [inside, recursive, Bool.not_true, Bool.false_eq_true, if_false, if_true]
        split
        · exact List.mem_filter.mpr ⟨below, directory⟩
        · next goal => exact nomatch final.symm.trans goal
    | @deep pattern next rest others scope found path wild inside recursive goal below described
        goesOn inductionHypothesis =>
        rw [matching, wild]
        simp only [inside, recursive, Bool.not_true, Bool.false_eq_true, if_false, if_true]
        split
        · next final => exact nomatch final.symm.trans goal
        · next other behind other =>
            obtain ⟨rfl, rfl⟩ := List.cons.inj (goal.symm.trans other)
            exact List.mem_flatMap.mpr
              ⟨found, List.mem_filter.mpr ⟨below, described⟩, inductionHypothesis⟩
    | child wild inside shallow present described goesOn inductionHypothesis =>
        rw [matching_of_shallow wild inside shallow]
        refine List.mem_flatMap.mpr ⟨_, List.mem_append_left _ ?_, inductionHypothesis⟩
        exact List.mem_filter.mpr ⟨List.mem_map_of_mem present, described⟩
    | special wild inside shallow starts dotted described goesOn inductionHypothesis =>
        rw [matching_of_shallow wild inside shallow]
        refine List.mem_flatMap.mpr ⟨_, List.mem_append_right _ ?_, inductionHypothesis⟩
        exact mem_dottedBelow_iff.mpr ⟨starts, _, dotted, described, rfl⟩

end FileTree

/-! ## Components of matches -/

namespace Path

/-- A path that goes on behind a scope by some components.  Below the working directory `.` it
stands alone, unless it leads up from there at once, which takes a condition. -/
structure Follows
    (scope : Path)
    (upward : Prop)
    (taken : List Component)
    (path : Path) : Prop where
  /-- What may stand behind a start. -/
  inner : ∀ component ∈ taken, component.isInner = true
  /-- Where the components are. -/
  joined :
    path.components = scope.components ++ taken ∧
        (scope.components = [.current] →
          taken = [] ∨ taken.head? = some .parent ∧ upward) ∨
      scope.components = [.current] ∧ path.components = taken

variable
  {scope middle path : Path}
  {upward further : Prop}
  {first second taken : List Component}

theorem Follows.refl (path : Path) (upward : Prop) : path.Follows upward [] path where
  inner := by simp
  joined := .inl ⟨(List.append_nil _).symm, fun _ => .inl rfl⟩

/-- A leading `.` is not inner, so that nothing is behind it. -/
theorem eq_nil_of_append_eq_current
    {front : List Component}
    (inner : ∀ component ∈ taken, component.isInner = true)
    (all : front ++ taken = [.current]) :
    front = [.current] ∧ taken = [] := by
  rcases List.append_eq_singleton_iff.mp all with ⟨-, alone⟩ | whole
  · exact nomatch inner .current (alone ▸ List.mem_singleton_self _)
  · exact whole

theorem Follows.imp
    (onward : scope.Follows upward taken path)
    (climbs : upward → further) :
    scope.Follows further taken path where
  inner := onward.inner
  joined :=
    onward.joined.imp_left (And.imp_right fun up working =>
      (up working).imp_right (And.imp_right climbs))

theorem Follows.trans
    (onward : scope.Follows upward first middle)
    (goesOn : middle.Follows further second path)
    (climbs : first = [] → further → upward) :
    scope.Follows upward (first ++ second) path where
  inner := by
    intro component present
    exact (List.mem_append.mp present).elim (onward.inner component) (goesOn.inner component)
  joined := by
    rcases onward.joined with ⟨behind, up⟩ | ⟨working, alone⟩ <;>
      rcases goesOn.joined with ⟨farBehind, farUp⟩ | ⟨farWorking, farAlone⟩
    · refine .inl ⟨by rw [farBehind, behind, List.append_assoc], fun working => ?_⟩
      rcases up working with rfl | ⟨parent, holds⟩
      · exact (farUp (by rw [behind, working, List.append_nil])).imp_right
          (And.imp_right (climbs rfl))
      · exact .inr ⟨by rw [List.head?_append, parent, Option.some_or], holds⟩
    · obtain ⟨working, rfl⟩ := eq_nil_of_append_eq_current onward.inner
        (behind.symm.trans farWorking)
      exact .inr ⟨working, farAlone⟩
    · exact .inr ⟨working, by rw [farBehind, alone]⟩
    · exact nomatch onward.inner .current (alone ▸ farWorking ▸ List.mem_singleton_self _)

theorem Follows.text_ne_nil
    (onward : scope.Follows upward taken path)
    (nonempty : scope.text ≠ [])
    (filled : taken ≠ []) :
    path.text ≠ [] := by
  rw [Ne, ← components_eq_nil_iff] at nonempty ⊢
  rcases onward.joined with ⟨behind, -⟩ | ⟨-, alone⟩
  · rw [behind]
    exact List.append_ne_nil_of_left_ne_nil nonempty taken
  · rwa [alone]

/-- The last of the names that lead to a path is its name. -/
theorem Follows.fileName?_eq
    {names : List Text}
    {last : Text}
    (onward : scope.Follows upward ((names ++ [last]).map .name) path) :
    path.fileName? = some last := by
  rw [fileName?_eq_some_iff]
  rcases onward.joined with ⟨behind, -⟩ | ⟨-, alone⟩
  · exact ⟨scope.components ++ names.map .name, by simpa using behind⟩
  · exact ⟨names.map .name, by simpa using alone⟩

theorem inner_toList_ofPiece? (piece : Text) :
    ∀ component ∈ (Component.ofPiece? piece).toList, component.isInner = true :=
  fun _ stands => Component.isInner_of_ofPiece? (Option.mem_toList.mp stands)

end Path

namespace FileTree

variable {tree : FileTree} {scope path : Path} {upward : Prop}

theorem follows_pathBelow
    {name : Text}
    (nonempty : scope.text ≠ [])
    (whole : '/' ∉ name) :
    scope.Follows upward (Component.ofPiece? name).toList (pathBelow scope name) where
  inner := Path.inner_toList_ofPiece? name
  joined := by
    unfold pathBelow
    split
    · next working =>
        rw [Path.components_of_slash_not_mem whole]
        split
        · next dot =>
            subst dot
            exact .inl ⟨by simp [working], fun _ => .inl rfl⟩
        · exact .inr ⟨working, rfl⟩
    · next elsewhere =>
        exact .inl ⟨Path.components_child nonempty whole, fun working => absurd working elsewhere⟩

theorem follows_pathBelow_of_isFileName
    {name : Text}
    (nonempty : scope.text ≠ [])
    (fileName : IsFileName name) :
    scope.Follows upward [.name name] (pathBelow scope name) := by
  have onward : scope.Follows upward _ _ := follows_pathBelow nonempty fileName.2
  rwa [fileName.1] at onward

theorem follows_child_of_dotted
    {name : Text}
    (nonempty : scope.text ≠ [])
    (dotted : name = ['.'] ∨ name = ['.', '.'])
    (climbs : upward) :
    scope.Follows upward (Component.ofPiece? name).toList (scope.child name) where
  inner := Path.inner_toList_ofPiece? name
  joined := by
    rcases dotted with rfl | rfl
    · exact .inl ⟨Path.components_child nonempty (by decide), fun _ => .inl rfl⟩
    · exact .inl ⟨Path.components_child nonempty (by decide), fun _ => .inr ⟨rfl, climbs⟩⟩

/-- What lies below a directory is led to by names. -/
theorem WellFormed.exists_follows_of_mem_pathsBelow
    {depth : Nat}
    {directory : Path}
    (wellFormed : tree.WellFormed)
    (present : path ∈ tree.pathsBelow depth directory)
    (nonempty : directory.text ≠ []) :
    ∃ names : List Text, names ≠ [] ∧ directory.Follows False (names.map .name) path := by
  induction depth generalizing directory with
  | zero => simp [pathsBelow] at present
  | succ depth inductionHypothesis =>
      rw [pathsBelow, List.mem_flatMap] at present
      obtain ⟨name, child, here⟩ := present
      have fileName := wellFormed.isFileName_of_mem_children child
      have first : directory.Follows False [.name name] (pathBelow directory name) :=
        follows_pathBelow_of_isFileName nonempty fileName
      rcases List.mem_cons.mp here with rfl | below
      · exact ⟨[name], List.cons_ne_nil name [], first⟩
      · split at below
        · obtain ⟨names, -, further⟩ := inductionHypothesis below
            (first.text_ne_nil nonempty (List.cons_ne_nil _ _))
          exact ⟨name :: names, List.cons_ne_nil name names,
            first.trans further fun _ => id⟩
        · simp at below

theorem Matches.eq_of_nil (matched : tree.Matches [] scope path) : path = scope := by
  cases matched
  rfl

theorem pathBelow_text_ne_nil
    {name : Text}
    (nonempty : scope.text ≠ [])
    (filled : name ≠ []) :
    (pathBelow scope name).text ≠ [] := by
  unfold pathBelow
  split
  · exact filled
  · exact Path.join_text_ne_nil nonempty ⟨name⟩

theorem endsInDot_pathBelow
    {name : Text}
    (nonempty : scope.text ≠ [])
    (filled : (pathBelow scope name).text ≠ [])
    (nothing : Component.ofPiece? name = none) :
    EndsInDot (pathBelow scope name) := by
  by_cases working : scope.components = [.current]
  · rw [pathBelow, if_pos working] at filled ⊢
    rcases Component.ofPiece?_eq_none_iff.mp nothing with rfl | rfl
    · exact absurd rfl filled
    · rfl
  · rw [pathBelow, if_neg working]
    exact endsInDot_child nonempty nothing

/-! ## Pieces and components -/

/-- The components that the pieces of a pattern stand for. -/
def componentsOf (pieces : List Text) : List Component :=
  pieces.filterMap Component.ofPiece?

theorem componentsOf_cons (piece : Text) (rest : List Text) :
    componentsOf (piece :: rest) = (Component.ofPiece? piece).toList ++ componentsOf rest := by
  rw [componentsOf, List.filterMap_cons]
  cases Component.ofPiece? piece <;> rfl

/-- Whether components start with a dotted one. -/
def StartsDotted (components : List Component) : Prop :=
  ∃ component rest, components = component :: rest ∧ component.isDotted = true

/-- What a path to a file goes on by behind a scope, along the pieces of a pattern. -/
structure Led
    (pieces : List Text)
    (scope : Path)
    (taken : List Component)
    (path : Path) : Prop where
  /-- The path goes on behind the scope. -/
  follows : scope.Follows (StartsDotted (componentsOf pieces)) taken path
  /-- It does so by what the pieces stand for. -/
  matched : Component.OneByOne (componentsOf pieces) taken
  /-- It stays at the scope only without pieces. -/
  halts : taken = [] → pieces = []

variable
  {piece : Text}
  {pattern : Pattern}
  {pieces rest : List Text}
  {others : List Pattern}
  {middle : Path}
  {first second taken : List Component}

/-- A first step and what follows it. -/
theorem Led.behind
    (led : Led rest middle second path)
    (onward : scope.Follows (StartsDotted (componentsOf pieces)) first middle)
    (climbs : first = [] → StartsDotted (componentsOf rest) → StartsDotted (componentsOf pieces))
    (matched : Component.OneByOne (componentsOf pieces) (first ++ second))
    (moves : first = [] → second ≠ []) :
    Led pieces scope (first ++ second) path where
  follows := onward.trans led.follows climbs
  matched := matched
  halts := by
    intro nothing
    obtain ⟨nowhere, stays⟩ := List.append_eq_nil_iff.mp nothing
    exact absurd stays (moves nowhere)

/-- A path to a file goes on behind a path that stays where it is. -/
theorem Led.ne_nil
    (led : Led pieces scope taken path)
    (parsed : pieces.mapM Pattern.parse = .ok others)
    (goesOn : tree.Matches others scope path)
    (dotted : EndsInDot scope)
    (undotted : ¬ EndsInDot path) :
    taken ≠ [] := by
  intro nothing
  obtain rfl := led.halts nothing
  obtain rfl := Except.ok.inj parsed
  exact undotted (goesOn.eq_of_nil ▸ dotted)

/-- A piece without wildcards leads on by what it stands for. -/
theorem Led.behind_literal
    (led : Led pieces (pathBelow scope piece) taken path)
    (parsed : pieces.mapM Pattern.parse = .ok others)
    (goesOn : tree.Matches others (pathBelow scope piece) path)
    (plain : piece.hasWildcard = false)
    (whole : '/' ∉ piece)
    (nonempty : scope.text ≠ [])
    (filled : (pathBelow scope piece).text ≠ [])
    (undotted : ¬ EndsInDot path) :
    Led (piece :: pieces) scope ((Component.ofPiece? piece).toList ++ taken) path := by
  refine led.behind (follows_pathBelow nonempty whole) ?_ ?_ ?_
  · intro nothing
    rw [componentsOf_cons, nothing, List.nil_append]
    exact id
  · rw [componentsOf_cons]
    cases stands : Component.ofPiece? piece with
    | none => exact led.matched
    | some component =>
        refine .fixed ?_ led.matched
        rcases Component.eq_parent_or_eq_name_of_ofPiece? stands with rfl | rfl
        · rfl
        · simp [Component.isFixed, plain]
  · intro nothing
    exact led.ne_nil parsed goesOn
      (endsInDot_pathBelow nonempty filled (Option.toList_eq_nil_iff.mp nothing)) undotted

theorem componentsOf_cons_of_hasWildcard
    (wild : piece.hasWildcard = true)
    (rest : List Text) :
    componentsOf (piece :: rest) = .name piece :: componentsOf rest := by
  have stands : Component.ofPiece? piece = some (.name piece) := by
    rw [Component.ofPiece?_eq_name_iff]
    refine ⟨rfl, ?_, ?_, ?_⟩ <;>
      · rintro rfl
        exact absurd wild (by decide)
  rw [componentsOf_cons, stands]
  rfl

/-- A piece with a wildcard leads on by a name. -/
theorem Led.behind_name
    {name : Text}
    (led : Led pieces (pathBelow scope name) taken path)
    (wild : piece.hasWildcard = true)
    (fileName : IsFileName name)
    (nonempty : scope.text ≠ []) :
    Led (piece :: pieces) scope (.name name :: taken) path := by
  refine led.behind (follows_pathBelow_of_isFileName nonempty fileName) (by simp) ?_ (by simp)
  rw [componentsOf_cons_of_hasWildcard wild]
  exact .name (by simp [Component.isFixed, wild]) led.matched

/-- A piece with a wildcard that starts with a dot leads nowhere or up. -/
theorem Led.behind_dotted
    {name : Text}
    (led : Led pieces (scope.child name) taken path)
    (parsed : pieces.mapM Pattern.parse = .ok others)
    (goesOn : tree.Matches others (scope.child name) path)
    (wild : piece.hasWildcard = true)
    (starts : piece.head? = some '.')
    (dotted : name = ['.'] ∨ name = ['.', '.'])
    (nonempty : scope.text ≠ [])
    (undotted : ¬ EndsInDot path) :
    Led (piece :: pieces) scope ((Component.ofPiece? name).toList ++ taken) path := by
  have mayClimb : Component.isDotted (.name piece) = true := by
    simp [Component.isDotted, wild, starts]
  have first : StartsDotted (componentsOf (piece :: pieces)) :=
    ⟨_, _, componentsOf_cons_of_hasWildcard wild pieces, mayClimb⟩
  have moves (nothing : (Component.ofPiece? name).toList = []) : taken ≠ [] :=
    led.ne_nil parsed goesOn (endsInDot_child nonempty (Option.toList_eq_nil_iff.mp nothing))
      undotted
  refine led.behind (follows_child_of_dotted nonempty dotted first) (fun _ _ => first) ?_ moves
  rw [componentsOf_cons_of_hasWildcard wild]
  rcases dotted with rfl | rfl
  · exact .current mayClimb (moves rfl) led.matched
  · exact .parent mayClimb led.matched

/-- What follows the patterns for directories in a pattern. -/
theorem exists_of_dropWhile_isRecursive
    {patterns : List Pattern}
    {next : Pattern}
    (parsed : pieces.mapM Pattern.parse = .ok patterns)
    (whole : ∀ piece ∈ pieces, '/' ∉ piece)
    (goal : patterns.dropWhile Pattern.isRecursive = next :: others) :
    ∃ count piece rest, pieces = List.replicate count ['*', '*'] ++ piece :: rest ∧
      Pattern.parse piece = .ok next ∧ rest.mapM Pattern.parse = .ok others := by
  induction pieces generalizing patterns with
  | nil =>
      obtain rfl := Except.ok.inj parsed
      exact nomatch goal
  | cons piece rest inductionHypothesis =>
      obtain ⟨first, behind, parsedPiece, parsedRest, rfl⟩ :=
        Pattern.mapM_parse_cons_eq_ok.mp parsed
      rw [List.dropWhile_cons] at goal
      split at goal
      · next recursive =>
          obtain rfl := Pattern.eq_stars_of_isRecursive parsedPiece
            (whole piece List.mem_cons_self) recursive
          obtain ⟨count, other, others, rfl, parsedOther, parsedOthers⟩ :=
            inductionHypothesis parsedRest
              (fun other present => whole other (List.mem_cons_of_mem _ present)) goal
          exact ⟨count + 1, other, others, rfl, parsedOther, parsedOthers⟩
      · obtain ⟨rfl, rfl⟩ := List.cons.inj goal
        exact ⟨0, piece, rest, rfl, parsedPiece, parsedRest⟩

theorem oneByOne_replicate
    (matched : Component.OneByOne (componentsOf pieces) taken)
    (filled : taken ≠ [])
    (count : Nat) :
    Component.OneByOne (componentsOf (List.replicate count ['*', '*'] ++ pieces)) taken := by
  induction count with
  | zero => exact matched
  | succ count inductionHypothesis =>
      have nowhere : ([] : List Text).map Component.name ++ taken ≠ [] := filled
      exact .directories nowhere inductionHypothesis

/-- The name of a path is matched by the piece that describes it. -/
theorem oneByOne_name
    {name : Text}
    (parsed : Pattern.parse piece = .ok pattern)
    (described : pattern.describes name = true)
    (fileName : IsFileName name)
    (matched : Component.OneByOne (componentsOf rest) taken) :
    Component.OneByOne (componentsOf (piece :: rest)) (.name name :: taken) := by
  cases literal : pattern.literal? with
  | none =>
      have wild := Pattern.hasWildcard_of_literal?_eq_none parsed literal
      rw [componentsOf_cons_of_hasWildcard wild]
      exact .name (by simp [Component.isFixed, wild]) matched
  | some text =>
      obtain ⟨rfl, plain⟩ := Pattern.eq_of_literal?_eq_some parsed literal
      obtain rfl := Pattern.eq_of_describes_literal literal described
      rw [componentsOf_cons, fileName.1]
      exact .fixed (by simp [Component.isFixed, plain]) matched

/-- Pieces for directories lead on by the names of directories, and by that of a match of the piece
behind them. -/
theorem Led.behind_directories
    {names : List Text}
    {found : Path}
    {count : Nat}
    {next : Pattern}
    (led : Led rest found taken path)
    (onward : scope.Follows False (names.map .name) found)
    (filled : names ≠ [])
    (parsed : Pattern.parse piece = .ok next)
    (described : describesName next found = true) :
    Led (['*', '*'] :: (List.replicate count ['*', '*'] ++ piece :: rest)) scope
      (names.map .name ++ taken) path := by
  obtain ⟨front, last, rfl⟩ : ∃ front last, names = front ++ [last] :=
    ⟨_, _, (List.dropLast_concat_getLast filled).symm⟩
  refine led.behind (onward.imp False.elim) (by simp) ?_ (by simp)
  have named := onward.fileName?_eq
  rw [describesName, named] at described
  have goal := oneByOne_name parsed described (Path.isFileName_of_fileName? named) led.matched
  have deep := oneByOne_replicate goal (List.cons_ne_nil _ _) count
  rw [List.map_append, List.append_assoc]
  exact .directories (List.append_ne_nil_of_right_ne_nil _ (List.cons_ne_nil _ _)) deep

theorem isFile_eq_false_of_isDirectory (directory : tree.isDirectory path = true) :
    tree.isFile path = false := by
  rw [isDirectory, beq_iff_eq] at directory
  rw [isFile, directory]

/-- A match that is a file is led to along the pieces of its pattern. -/
theorem WellFormed.exists_led
    {patterns : List Pattern}
    (wellFormed : tree.WellFormed)
    (matched : tree.Matches patterns scope path)
    (leadsToFile : tree.isFile path = true)
    (nonempty : scope.text ≠ [])
    (parsed : pieces.mapM Pattern.parse = .ok patterns)
    (whole : ∀ piece ∈ pieces, '/' ∉ piece) :
    ∃ taken, Led pieces scope taken path := by
  have undotted := wellFormed.not_endsInDot_of_isFile leadsToFile
  induction matched generalizing pieces with
  | stop scope =>
      cases pieces with
      | nil => exact ⟨[], .refl scope _, .nil, fun _ => rfl⟩
      | cons piece rest =>
          obtain ⟨first, others, -, -, nothing⟩ := Pattern.mapM_parse_cons_eq_ok.mp parsed
          exact nomatch nothing
  | directories wild inside recursive final below directory =>
      rw [isFile_eq_false_of_isDirectory directory] at leadsToFile
      exact nomatch leadsToFile
  | @dots pattern others scope path name literal dotted inside goesOn inductionHypothesis =>
      obtain ⟨piece, rest, rfl, parsedPiece, parsedRest⟩ := Pattern.exists_cons_of_mapM_parse parsed
      obtain ⟨rfl, plain⟩ := Pattern.eq_of_literal?_eq_some parsedPiece literal
      obtain ⟨wholePiece, wholeRest⟩ := List.forall_mem_cons.mp whole
      have filled : (pathBelow scope name).text ≠ [] :=
        pathBelow_text_ne_nil nonempty (by rcases dotted with rfl | rfl <;> simp)
      obtain ⟨taken, led⟩ :=
        inductionHypothesis leadsToFile filled parsedRest wholeRest undotted
      exact ⟨_, led.behind_literal parsedRest goesOn plain wholePiece nonempty filled undotted⟩
  | @named pattern others scope path name literal undottedName has goesOn inductionHypothesis =>
      obtain ⟨piece, rest, rfl, parsedPiece, parsedRest⟩ := Pattern.exists_cons_of_mapM_parse parsed
      obtain ⟨rfl, plain⟩ := Pattern.eq_of_literal?_eq_some parsedPiece literal
      obtain ⟨wholePiece, wholeRest⟩ := List.forall_mem_cons.mp whole
      have filled := text_ne_nil_of_hasEntry has
      obtain ⟨taken, led⟩ :=
        inductionHypothesis leadsToFile filled parsedRest wholeRest undotted
      exact ⟨_, led.behind_literal parsedRest goesOn plain wholePiece nonempty filled undotted⟩
  | @deep pattern next behind others scope found path wild inside recursive goal below described
      goesOn inductionHypothesis =>
      obtain ⟨piece, rest, rfl, parsedPiece, parsedRest⟩ := Pattern.exists_cons_of_mapM_parse parsed
      obtain ⟨wholePiece, wholeRest⟩ := List.forall_mem_cons.mp whole
      obtain rfl := Pattern.eq_stars_of_isRecursive parsedPiece wholePiece recursive
      obtain ⟨count, piece, rest, rfl, parsedNext, parsedOthers⟩ :=
        exists_of_dropWhile_isRecursive parsedRest wholeRest goal
      obtain ⟨names, filled, onward⟩ :=
        wellFormed.exists_follows_of_mem_pathsBelow below nonempty
      obtain ⟨taken, led⟩ :=
        inductionHypothesis leadsToFile (onward.text_ne_nil nonempty (by simpa using filled))
          parsedOthers (fun other present => wholeRest other (by simp [present])) undotted
      exact ⟨_, led.behind_directories onward filled parsedNext described⟩
  | @child pattern others scope path name wild inside shallow present described goesOn
      inductionHypothesis =>
      obtain ⟨piece, rest, rfl, parsedPiece, parsedRest⟩ := Pattern.exists_cons_of_mapM_parse parsed
      have fileName := wellFormed.isFileName_of_mem_children present
      obtain ⟨taken, led⟩ :=
        inductionHypothesis leadsToFile (pathBelow_text_ne_nil nonempty fileName.ne_nil)
          parsedRest (List.forall_mem_cons.mp whole).2 undotted
      exact ⟨_, led.behind_name (Pattern.hasWildcard_of_literal?_eq_none parsedPiece wild)
        fileName nonempty⟩
  | @special pattern others scope path name wild inside shallow starts dotted described goesOn
      inductionHypothesis =>
      obtain ⟨piece, rest, rfl, parsedPiece, parsedRest⟩ := Pattern.exists_cons_of_mapM_parse parsed
      obtain ⟨taken, led⟩ :=
        inductionHypothesis leadsToFile (Path.join_text_ne_nil nonempty ⟨name⟩)
          parsedRest (List.forall_mem_cons.mp whole).2 undotted
      exact ⟨_, led.behind_dotted parsedRest goesOn
        (Pattern.hasWildcard_of_literal?_eq_none parsedPiece wild)
        (Pattern.head?_of_parse parsedPiece starts) dotted nonempty undotted⟩

end FileTree
end FortranDocs
