import FortranDocs.Path.Basic

/-!
# The order of paths

`inOrder` orders lists by an order of their members: it is total and transitive if the members'
order is, and tells lists apart if the members' order does.  So paths are in a total order, in
which two paths have the same place if they have the same components,
`Path.precedes_antisymm_iff`.
-/

namespace FortranDocs

section InOrder

variable {Member : Type} {precedes : Member -> Member -> Bool}

/-- Of two lists the one with the earlier first member precedes, and the rests decide if neither
first member is earlier. -/
theorem inOrder_cons_iff {left right : Member} {leftRest rightRest : List Member} :
    inOrder precedes (left :: leftRest) (right :: rightRest) = true ↔
      precedes left right = true ∧
        (precedes right left = true → inOrder precedes leftRest rightRest = true) := by
  simp only [inOrder, Bool.and_eq_true, Bool.or_eq_true, Bool.not_eq_true']
  cases precedes right left <;> simp

/-- An order that is total on members is total on lists. -/
theorem inOrder_total
    (total : ∀ left right, precedes left right = true ∨ precedes right left = true)
    (left right : List Member) :
    inOrder precedes left right = true ∨ inOrder precedes right left = true := by
  induction left generalizing right with
  | nil => exact .inl rfl
  | cons first leftRest inductionHypothesis =>
      cases right with
      | nil => exact .inr rfl
      | cons second rightRest =>
          rw [inOrder_cons_iff, inOrder_cons_iff]
          by_cases forth : precedes first second = true
          · by_cases back : precedes second first = true
            · exact (inductionHypothesis rightRest).imp (fun rest => ⟨forth, fun _ => rest⟩)
                fun rest => ⟨back, fun _ => rest⟩
            · exact .inl ⟨forth, fun behind => absurd behind back⟩
          · exact .inr ⟨(total first second).resolve_left forth,
              fun before => absurd before forth⟩

/-- An order that is transitive on members is transitive on lists. -/
theorem inOrder_trans
    (trans : ∀ left middle right,
      precedes left middle = true → precedes middle right = true → precedes left right = true)
    {left middle right : List Member}
    (first : inOrder precedes left middle = true)
    (second : inOrder precedes middle right = true) :
    inOrder precedes left right = true := by
  induction left generalizing middle right with
  | nil => rfl
  | cons leftFirst leftRest inductionHypothesis =>
      cases middle with
      | nil => exact nomatch first
      | cons middleFirst middleRest =>
          cases right with
          | nil => exact nomatch second
          | cons rightFirst rightRest =>
              rw [inOrder_cons_iff] at first second ⊢
              refine ⟨trans _ _ _ first.1 second.1, fun back => ?_⟩
              exact inductionHypothesis (first.2 (trans _ _ _ second.1 back))
                (second.2 (trans _ _ _ back first.1))

/-- An order that tells members apart tells lists apart. -/
theorem eq_of_inOrder
    (antisymm : ∀ left right,
      precedes left right = true → precedes right left = true → left = right)
    {left right : List Member}
    (forth : inOrder precedes left right = true)
    (back : inOrder precedes right left = true) :
    left = right := by
  induction left generalizing right with
  | nil =>
      cases right with
      | nil => rfl
      | cons second rightRest => exact nomatch back
  | cons first leftRest inductionHypothesis =>
      cases right with
      | nil => exact nomatch forth
      | cons second rightRest =>
          rw [inOrder_cons_iff] at forth back
          rw [antisymm first second forth.1 back.1,
            inductionHypothesis (forth.2 back.1) (back.2 forth.1)]

end InOrder

namespace Component

theorem ble_total (left right : Nat) : Nat.ble left right = true ∨ Nat.ble right left = true := by
  rw [Nat.ble_eq, Nat.ble_eq]
  exact Nat.le_total left right

theorem ble_trans
    (left middle right : Nat)
    (first : Nat.ble left middle = true)
    (second : Nat.ble middle right = true) :
    Nat.ble left right = true := by
  rw [Nat.ble_eq] at *
  exact Nat.le_trans first second

theorem eq_of_ble
    (left right : Nat)
    (forth : Nat.ble left right = true)
    (back : Nat.ble right left = true) :
    left = right := by
  rw [Nat.ble_eq] at *
  exact Nat.le_antisymm forth back

/-- Components are told apart by their keys. -/
theorem key_injective {left right : Component} (same : left.key = right.key) : left = right := by
  cases left <;> cases right
  case name.name leftText rightText =>
    have texts : leftText.map Char.toNat = rightText.map Char.toNat := (List.cons.inj same).2
    rw [(List.map_inj_right fun _ _ => Char.toNat_inj.mp).mp texts]
  all_goals first | rfl | simp [key] at same

/-- One of two components precedes the other. -/
theorem precedes_total (left right : Component) :
    left.precedes right = true ∨ right.precedes left = true :=
  inOrder_total ble_total left.key right.key

theorem precedes_trans
    (left middle right : Component)
    (first : left.precedes middle = true)
    (second : middle.precedes right = true) :
    left.precedes right = true :=
  inOrder_trans ble_trans first second

/-- No two components have the same place. -/
theorem eq_of_precedes
    (left right : Component)
    (forth : left.precedes right = true)
    (back : right.precedes left = true) :
    left = right :=
  key_injective (eq_of_inOrder eq_of_ble forth back)

end Component

namespace Path

/-- Paths are the same if they have the same components. -/
theorem same_iff {left right : Path} :
    left.same right = true ↔ left.components = right.components :=
  beq_iff_eq

theorem precedes_total (left right : Path) :
    left.precedes right = true ∨ right.precedes left = true :=
  inOrder_total Component.precedes_total left.components right.components

theorem precedes_trans
    (left middle right : Path)
    (first : left.precedes middle = true)
    (second : middle.precedes right = true) :
    left.precedes right = true :=
  inOrder_trans Component.precedes_trans first second

theorem precedes_refl (path : Path) : path.precedes path = true :=
  (precedes_total path path).elim id id

/-- Two paths have the same place exactly if they have the same components. -/
theorem precedes_antisymm_iff {left right : Path} :
    left.precedes right = true ∧ right.precedes left = true ↔ left.same right = true := by
  rw [same_iff]
  constructor
  · exact fun both => eq_of_inOrder Component.eq_of_precedes both.1 both.2
  · intro same
    rw [precedes, precedes, same]
    exact ⟨precedes_refl right, precedes_refl right⟩

end Path
end FortranDocs
