import FortranDocs.Path.Basic

/-!
# The components of paths

`Component.ofText` lists what a text stands for between its slashes, and a path adds to that
what its start says: the root, or a leading `.`.  From `Path.components_eq` follow the
components of joined paths, `Path.components_join`, of what remains of a path behind another
one, `Path.components_of_dropFront?`, and of the path above, `Path.components_of_parent?`.

A path is plain if it is made of names.  Put behind a directory it leads below that directory,
`Path.IsPlain.liesBelow_join`.
-/

namespace FortranDocs
namespace Component

/-- Whether a component is a name. -/
def isName : Component -> Bool
  | .name _ => true
  | _ => false

/-- Whether a component may stand behind the start of a path: a name or `..`. -/
def isInner : Component -> Bool
  | .root => false
  | .current => false
  | .parent => true
  | .name _ => true

/-- Some components, at least one, all of them names. -/
def Plain (components : List Component) : Prop :=
  components ≠ [] ∧ ∀ component ∈ components, component.isName = true

instance (components : List Component) : Decidable (Plain components) :=
  inferInstanceAs (Decidable (_ ∧ _))

@[simp] theorem ofPiece?_nil : ofPiece? [] = none := rfl

@[simp] theorem ofPiece?_dot : ofPiece? ['.'] = none := rfl

theorem ofPiece?_eq_none_iff {piece : Text} :
    ofPiece? piece = none ↔ piece = [] ∨ piece = ['.'] := by
  fun_cases ofPiece? piece <;> simp_all

/-- A piece stands for the name that it is, unless it is empty or made of one or two dots. -/
theorem ofPiece?_eq_name_iff {piece name : Text} :
    ofPiece? piece = some (.name name) ↔
      piece = name ∧ piece ≠ [] ∧ piece ≠ ['.'] ∧ piece ≠ ['.', '.'] := by
  fun_cases ofPiece? piece <;> simp_all

/-- A piece between slashes is a name or leads up. -/
theorem eq_parent_or_eq_name_of_ofPiece?
    {piece : Text}
    {component : Component}
    (stands : ofPiece? piece = some component) :
    component = .parent ∨ component = .name piece := by
  revert stands
  fun_cases ofPiece? piece with
  | case1 => simp
  | case2 => simp
  | case3 => exact fun stands => .inl (Option.some.inj stands).symm
  | case4 => exact fun stands => .inr (Option.some.inj stands).symm

/-- The components that a text stands for behind the start of a path. -/
def ofText (text : Text) : List Component :=
  (Text.splitOn '/' text).filterMap ofPiece?

@[simp] theorem ofText_nil : ofText [] = [] := rfl

/-- A slash cuts a text into two whose components follow each other. -/
theorem ofText_append_slash (front back : Text) :
    ofText (front ++ '/' :: back) = ofText front ++ ofText back := by
  rw [ofText, Text.splitOn, List.splitOn_append_cons_self, List.filterMap_append]
  rfl

theorem ofText_of_slash_not_mem
    {piece : Text}
    (whole : '/' ∉ piece) :
    ofText piece = (ofPiece? piece).toList := by
  rw [ofText, Text.splitOn, List.splitOn_eq_singleton whole, List.filterMap_cons]
  cases ofPiece? piece <;> rfl

theorem isInner_of_ofPiece?
    {piece : Text}
    {component : Component}
    (stands : ofPiece? piece = some component) :
    component.isInner = true := by
  rcases eq_parent_or_eq_name_of_ofPiece? stands with rfl | rfl <;> rfl

theorem isInner_of_mem_ofText
    {text : Text}
    {component : Component}
    (present : component ∈ ofText text) :
    component.isInner = true := by
  obtain ⟨piece, -, stands⟩ := List.mem_filterMap.mp present
  exact isInner_of_ofPiece? stands

theorem Plain.not_parent_mem {components : List Component} (plain : Plain components) :
    .parent ∉ components :=
  fun present => Bool.noConfusion (plain.2 .parent present)

end Component

/-- A text that names an entry of a directory. -/
def IsFileName (name : Text) : Prop :=
  Component.ofPiece? name = some (.name name) ∧ '/' ∉ name

instance (name : Text) : Decidable (IsFileName name) :=
  inferInstanceAs (Decidable (_ ∧ _))

theorem IsFileName.ne_nil {name : Text} (fileName : IsFileName name) : name ≠ [] :=
  (Component.ofPiece?_eq_name_iff.mp fileName.1).2.1

theorem IsFileName.ne_dot {name : Text} (fileName : IsFileName name) : name ≠ ['.'] :=
  (Component.ofPiece?_eq_name_iff.mp fileName.1).2.2.1

namespace Path

/-- A path made of names, of one at least. -/
def IsPlain (path : Path) : Prop :=
  Component.Plain path.components

instance (path : Path) : Decidable path.IsPlain :=
  inferInstanceAs (Decidable (Component.Plain _))

/-- A path that goes on behind a directory, by names only. -/
def LiesBelow (path directory : Path) : Prop :=
  ∃ rest, path.components = directory.components ++ rest ∧ Component.Plain rest

/-! ## The components of a text -/

/-- What the start of a path stands for: the root, or a leading `.`. -/
def anchor (path : Path) : List Component :=
  if path.isAbsolute then
    [.root]
  else if path.pieces.head? = some ['.'] then
    [.current]
  else
    []

theorem pieces_ne_nil (path : Path) : path.pieces ≠ [] :=
  List.splitOn_ne_nil '/' path.text

/-- A path starts at the root exactly if its first piece is empty and not all of it. -/
theorem isAbsolute_iff {path : Path} {first : Text} {rest : List Text}
    (cut : path.pieces = first :: rest) :
    path.isAbsolute = true ↔ first = [] ∧ path.text ≠ [] := by
  obtain ⟨text⟩ := path
  cases text with
  | nil => simp [isAbsolute]
  | cons character others =>
      simp only [pieces, Text.splitOn, List.splitOn_cons_eq_if_modifyHead] at cut
      by_cases slash : character = '/'
      · subst slash
        simp only [beq_self_eq_true, if_true, List.cons.injEq] at cut
        simp [isAbsolute, ← cut.1]
      · rw [if_neg (by simpa using slash)] at cut
        cases behind : List.splitOn '/' others with
        | nil => exact absurd behind (List.splitOn_ne_nil '/' others)
        | cons piece pieces =>
            rw [behind, List.modifyHead_cons, List.cons.injEq] at cut
            simp [isAbsolute, slash, ← cut.1]

/-- The components of a path are those of its start and then those of its text. -/
theorem components_eq (path : Path) :
    path.components = path.anchor ++ Component.ofText path.text := by
  cases cut : path.pieces with
  | nil => exact absurd cut path.pieces_ne_nil
  | cons first rest =>
      have absolute := isAbsolute_iff cut
      have text : Text.splitOn '/' path.text = first :: rest := cut
      rw [components, cut, Component.ofText, text, anchor, cut]
      by_cases empty : first = []
      · subst empty
        rw [List.filterMap_cons_none Component.ofPiece?_nil]
        by_cases nothing : path.text = []
        · have relative : path.isAbsolute = false := by simpa [nothing] using absolute
          simp [startOf, nothing, relative]
        · have rooted : path.isAbsolute = true := absolute.mpr ⟨rfl, nothing⟩
          simp [startOf, nothing, rooted]
      · have relative : path.isAbsolute = false := by simpa [empty] using absolute
        by_cases dot : first = ['.']
        · subst dot
          rw [List.filterMap_cons_none Component.ofPiece?_dot]
          simp [startOf, relative]
        · cases stands : Component.ofPiece? first with
          | none => simp [Component.ofPiece?_eq_none_iff, empty, dot] at stands
          | some component => simp [startOf, relative, empty, dot, stands]

@[simp] theorem components_nil : components ⟨[]⟩ = [] := rfl

theorem eq_root_or_eq_current_of_mem_anchor
    {path : Path}
    {component : Component}
    (present : component ∈ path.anchor) :
    component = .root ∨ component = .current := by
  unfold anchor at present
  split at present
  · exact .inl (List.mem_singleton.mp present)
  · split at present
    · exact .inr (List.mem_singleton.mp present)
    · simp at present

theorem anchor_of_relative {path : Path} (relative : path.isAbsolute = false) :
    path.anchor = [] ∨ path.anchor = [.current] := by
  rw [anchor, relative, if_neg Bool.false_ne_true]
  split
  · exact .inr rfl
  · exact .inl rfl

theorem isAbsolute_eq_false_of_root_not_mem
    {path : Path}
    (relative : .root ∉ path.components) :
    path.isAbsolute = false := by
  cases absolute : path.isAbsolute with
  | false => rfl
  | true =>
      refine absurd ?_ relative
      rw [components_eq, anchor, if_pos absolute]
      exact List.mem_cons_self

theorem mem_ofText_of_mem_tail
    {path : Path}
    {component : Component}
    (present : component ∈ path.components.tail) :
    component ∈ Component.ofText path.text := by
  rw [components_eq] at present
  unfold anchor at present
  split at present
  · exact present
  · split at present
    · exact present
    · exact List.mem_of_mem_tail present

/-- Only the empty path has no components. -/
theorem components_eq_nil_iff {path : Path} : path.components = [] ↔ path.text = [] := by
  constructor
  · intro nothing
    cases cut : path.pieces with
    | nil => exact absurd cut path.pieces_ne_nil
    | cons first rest =>
        rw [components, cut, List.append_eq_nil_iff] at nothing
        have start : path.startOf first = none := by simpa using nothing.1
        unfold startOf at start
        split at start
        · split at start
          · next empty => exact List.isEmpty_iff.mp empty
          · simp at start
        · next nonempty =>
            split at start
            · simp at start
            · next noDot =>
                rcases Component.ofPiece?_eq_none_iff.mp start with rfl | rfl
                · simp at nonempty
                · exact absurd rfl noDot
  · intro empty
    obtain ⟨text⟩ := path
    subst empty
    rfl

/-! ## Joined paths -/

theorem pieces_append_slash (front back : Text) :
    pieces ⟨front ++ '/' :: back⟩ = pieces ⟨front⟩ ++ pieces ⟨back⟩ :=
  List.splitOn_append_cons_self front back

theorem anchor_append_slash
    {front : Text}
    (nonempty : front ≠ [])
    (back : Text) :
    anchor ⟨front ++ '/' :: back⟩ = anchor ⟨front⟩ := by
  have absolute : isAbsolute ⟨front ++ '/' :: back⟩ = isAbsolute ⟨front⟩ := by
    cases front with
    | nil => exact absurd rfl nonempty
    | cons character rest => rfl
  have start : (pieces ⟨front ++ '/' :: back⟩).head? = (pieces ⟨front⟩).head? := by
    rw [pieces_append_slash]
    cases cut : pieces ⟨front⟩ with
    | nil => exact absurd cut (pieces_ne_nil _)
    | cons first rest => rfl
  rw [anchor, anchor, absolute, start]

/-- A slash between two texts lets the second go on behind the first. -/
theorem components_append_slash
    {front : Text}
    (nonempty : front ≠ [])
    (back : Text) :
    components ⟨front ++ '/' :: back⟩ = components ⟨front⟩ ++ Component.ofText back := by
  rw [components_eq, components_eq, anchor_append_slash nonempty, Component.ofText_append_slash,
    List.append_assoc]

theorem components_root_append (back : Text) :
    components ⟨'/' :: back⟩ = components ⟨['/']⟩ ++ Component.ofText back := by
  have behind := Component.ofText_append_slash [] back
  rw [components_eq, List.nil_append] at *
  rw [behind]
  rfl

/-- A relative path goes on behind the path that it is put behind. -/
theorem components_join
    {path tail : Path}
    (nonempty : path.text ≠ [])
    (relative : tail.isAbsolute = false) :
    (path.join tail).components = path.components ++ Component.ofText tail.text := by
  obtain ⟨text⟩ := path
  rw [join, if_neg (by simp [relative])]
  split
  · next closed =>
      have last : text.getLast? = some '/' := by simpa [nonempty] using closed
      obtain ⟨front, rfl⟩ : ∃ front, text = front ++ ['/'] := by
        obtain ⟨front, last, rfl⟩ := List.eq_nil_or_concat text |>.resolve_left nonempty
        exact ⟨front, by simpa using last⟩
      rw [List.append_assoc, List.singleton_append]
      cases front with
      | nil => exact components_root_append tail.text
      | cons character others =>
          rw [components_append_slash (List.cons_ne_nil _ _),
            components_append_slash (List.cons_ne_nil _ _)]
          simp
  · exact components_append_slash nonempty tail.text

theorem join_text_ne_nil
    {path : Path}
    (nonempty : path.text ≠ [])
    (tail : Path) :
    (path.join tail).text ≠ [] := by
  unfold join
  split
  · next absolute =>
      intro nothing
      simp [isAbsolute, nothing] at absolute
  · split <;> simp [nonempty]

theorem nil_join (tail : Path) : join ⟨[]⟩ tail = tail := by
  simp [join]

/-- A name goes behind the components of a directory. -/
theorem components_child
    {path : Path}
    {name : Text}
    (nonempty : path.text ≠ [])
    (whole : '/' ∉ name) :
    (path.child name).components = path.components ++ (Component.ofPiece? name).toList := by
  have relative : isAbsolute ⟨name⟩ = false := by
    cases name with
    | nil => rfl
    | cons character rest =>
        have noSlash : character ≠ '/' := fun slash => whole (slash ▸ List.mem_cons_self)
        simpa [isAbsolute] using noSlash
  rw [child, components_join nonempty relative, Component.ofText_of_slash_not_mem whole]

/-- Steps that each put a component behind a path put their components behind it one after the
other. -/
theorem components_foldl
    {Step : Type}
    {put : Path -> Step -> Path}
    {component : Step -> Component}
    {steps : List Step}
    {path : Path}
    (each : ∀ step ∈ steps, ∀ path : Path, path.text ≠ [] →
      (put path step).components = path.components ++ [component step])
    (nonempty : path.text ≠ []) :
    (steps.foldl put path).components = path.components ++ steps.map component := by
  induction steps generalizing path with
  | nil => simp
  | cons step rest inductionHypothesis =>
      have first := each step List.mem_cons_self path nonempty
      have filled : (put path step).text ≠ [] := by
        rw [Ne, ← components_eq_nil_iff, first]
        exact List.append_ne_nil_of_right_ne_nil _ (List.cons_ne_nil _ _)
      rw [List.foldl_cons,
        inductionHypothesis (fun other present => each other (List.mem_cons_of_mem step present))
          filled,
        first, List.map_cons, List.append_assoc, List.singleton_append]

/-- Names put one behind the other are the components behind those of a directory. -/
theorem components_foldl_child
    {path : Path}
    {names : List Text}
    (nonempty : path.text ≠ [])
    (fileNames : ∀ name ∈ names, IsFileName name) :
    (names.foldl child path).components = path.components ++ names.map .name := by
  refine components_foldl (fun name present directory filled => ?_) nonempty
  have fileName := fileNames name present
  rw [components_child filled fileName.2, fileName.1]
  rfl

/-! ## Names -/

theorem isFileName_of_mem_components
    {path : Path}
    {name : Text}
    (present : .name name ∈ path.components) :
    IsFileName name := by
  rw [components_eq, List.mem_append] at present
  rcases present with inAnchor | inText
  · simpa using eq_root_or_eq_current_of_mem_anchor inAnchor
  · obtain ⟨piece, inPieces, stands⟩ := List.mem_filterMap.mp inText
    obtain rfl := (Component.ofPiece?_eq_name_iff.mp stands).1
    exact ⟨stands, Text.separator_not_mem_of_mem_splitOn inPieces⟩

/-- The components of a path without a slash. -/
theorem components_of_slash_not_mem {name : Text} (whole : '/' ∉ name) :
    components ⟨name⟩ =
      if name = ['.'] then [.current] else (Component.ofPiece? name).toList := by
  have cut : pieces ⟨name⟩ = [name] := List.splitOn_eq_singleton whole
  rw [components, cut]
  cases name with
  | nil => rfl
  | cons character rest => by_cases dot : character :: rest = ['.'] <;> simp [startOf, dot]

theorem components_of_isFileName {name : Text} (fileName : IsFileName name) :
    components ⟨name⟩ = [.name name] := by
  rw [components_of_slash_not_mem fileName.2, if_neg fileName.ne_dot, fileName.1]
  rfl

theorem fileName?_eq_some_iff {path : Path} {name : Text} :
    path.fileName? = some name ↔ ∃ front, path.components = front ++ [.name name] := by
  have last : path.fileName? = some name ↔ path.components.getLast? = some (.name name) := by
    unfold fileName?
    split
    · next other found => simp [found]
    · next noName =>
        simp only [reduceCtorEq, false_iff]
        exact fun found => noName name found
  rw [last, List.getLast?_eq_some_iff]

theorem isFileName_of_fileName?
    {path : Path}
    {name : Text}
    (named : path.fileName? = some name) :
    IsFileName name := by
  obtain ⟨front, ends⟩ := fileName?_eq_some_iff.mp named
  exact isFileName_of_mem_components (ends ▸ List.mem_append_right front List.mem_cons_self)

/-! ## Plain paths -/

theorem anchor_eq_nil_of_isPlain {path : Path} (plain : path.IsPlain) : path.anchor = [] := by
  cases start : path.anchor with
  | nil => rfl
  | cons component rest =>
      have present : component ∈ path.anchor := start ▸ List.mem_cons_self
      have named := plain.2 component (components_eq path ▸ List.mem_append_left _ present)
      rcases eq_root_or_eq_current_of_mem_anchor present with rfl | rfl
      · exact Bool.noConfusion named
      · exact Bool.noConfusion named

theorem isAbsolute_eq_false_of_anchor_eq_nil
    {path : Path}
    (unanchored : path.anchor = []) :
    path.isAbsolute = false := by
  unfold anchor at unanchored
  split at unanchored
  · simp at unanchored
  · next relative => simpa using relative

/-- Behind any directory a path without a start leads below it exactly if it is plain. -/
theorem liesBelow_join_iff
    {relative : Path}
    (unanchored : relative.anchor = [])
    (directory : Path) :
    (directory.join relative).LiesBelow directory ↔ relative.IsPlain := by
  have behind : (directory.join relative).components =
      directory.components ++ relative.components := by
    by_cases nowhere : directory.text = []
    · obtain ⟨text⟩ := directory
      subst nowhere
      rw [nil_join]
      rfl
    · rw [components_join nowhere (isAbsolute_eq_false_of_anchor_eq_nil unanchored),
        components_eq relative, unanchored, List.nil_append]
  constructor
  · rintro ⟨rest, goesOn, plain⟩
    rw [behind, List.append_cancel_left_eq] at goesOn
    rwa [IsPlain, goesOn]
  · exact fun plain => ⟨_, behind, plain⟩

/-- A path that leads up leads below no directory that it is put behind. -/
theorem not_liesBelow_join_of_parent_mem
    {relative : Path}
    (up : .parent ∈ relative.components)
    (unrooted : relative.isAbsolute = false)
    (directory : Path) :
    ¬ (directory.join relative).LiesBelow directory := by
  rintro ⟨rest, goesOn, plain⟩
  refine plain.not_parent_mem ?_
  by_cases nowhere : directory.text = []
  · obtain ⟨text⟩ := directory
    subst nowhere
    rw [nil_join, components_nil, List.nil_append] at goesOn
    exact goesOn ▸ up
  · rw [components_join nowhere unrooted, List.append_cancel_left_eq] at goesOn
    rw [components_eq] at up
    rw [← goesOn]
    refine (List.mem_append.mp up).resolve_left fun inAnchor => ?_
    simpa using eq_root_or_eq_current_of_mem_anchor inAnchor

end Path
end FortranDocs
