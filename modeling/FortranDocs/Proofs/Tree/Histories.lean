import FortranDocs.Proofs.Tree.RoundTrip
import FortranDocs.Proofs.Tree.Visiting

/-!
# Histories of edits

A tree that was edited in many steps is the tree as it was, with the last text that was written
into each construct: `Tree.edit_by_last_texts`.  A step finds its construct by counting through the
tree as the steps before it left it, which is a visit by `Visitor.numbering`; so is the whole
history at once.
-/

namespace FortranDocs

/-- The frame with a text written into it, if there is one. -/
def Frame.withText (doc : Option Text) (frame : Frame) : Frame :=
  match doc with
  | some doc => frame.writeDoc doc
  | none => frame

/-- What is written last stays. -/
theorem Frame.writeDoc_withText (doc : Text) (earlier : Option Text) (frame : Frame) :
    (frame.withText earlier).writeDoc doc = frame.writeDoc doc := by
  cases earlier <;> rfl

namespace Visitor

/-- A visitor that counts the constructs and writes the text for each number, if there is one. -/
def numbering (texts : Nat -> Option Text) : Visitor Nat Empty :=
  fun _ _ number =>
    match texts number with
    | some doc => .write doc (number + 1)
    | none => .keep (number + 1)

theorem survey_numbering
    (texts : Nat -> Option Text)
    (constructs : List (Nat × Construct))
    (number : Nat) :
    (numbering texts).survey constructs number =
      ((List.range' number constructs.length).map texts, number + constructs.length, none) := by
  induction constructs generalizing number with
  | nil => rfl
  | cons shown rest inductionHypothesis =>
      obtain ⟨depth, construct⟩ := shown
      rw [survey]
      unfold numbering at inductionHypothesis ⊢
      cases text_eq : texts number <;>
        simp only [text_eq, inductionHypothesis, List.length_cons, List.range'_succ,
          List.map_cons, Nat.add_assoc, Nat.add_comm 1]

end Visitor

namespace Tree

/-- A visit by numbers writes the text for each construct's number. -/
theorem visit_numbering (texts : Nat -> Option Text) (tree : Tree) :
    tree.visit (.numbering texts) 0 =
      (tree.mapFrames fun number => Frame.withText (texts number),
        tree.constructs.length, none) := by
  rw [visit_eq, Visitor.survey_numbering, Nat.zero_add]
  refine Prod.ext ?_ rfl
  apply mapFrames_congr
  intro number inside
  funext frame
  rw [Frame.decided, List.getElem?_map, List.getElem?_range' inside]
  simp only [Option.map_some, Nat.zero_add, Nat.one_mul]
  cases texts number <;> rfl

theorem writeDoc_eq_visit (index : Nat) (doc : Text) (tree : Tree) :
    tree.writeDoc index doc =
      (tree.visit (.numbering fun number => if number = index then some doc else none) 0).1 := by
  rw [visit_numbering, writeDoc]
  congr 1
  funext number frame
  split <;> rfl

/-- The last text that some steps write into the construct with a given number. -/
def lastWritten (steps : List (Nat × Text)) (number : Nat) : Option Text :=
  (steps.filter fun step => step.1 = number).getLast?.map Prod.snd

theorem lastWritten_concat (steps : List (Nat × Text)) (index : Nat) (doc : Text) (number : Nat) :
    lastWritten (steps ++ [(index, doc)]) number =
      if number = index then some doc else lastWritten steps number := by
  unfold lastWritten
  rw [List.filter_append]
  split
  · next same =>
      subst same
      simp
  · next other => simp [Ne.symm other]

theorem lastWritten_append (front back : List (Nat × Text)) (number : Nat) :
    lastWritten (front ++ back) number =
      (lastWritten back number).or (lastWritten front number) := by
  unfold lastWritten
  rw [List.filter_append, List.getLast?_append, Option.map_or]

/-- A history leaves the last text in each construct. -/
theorem edit_eq_mapFrames_lastWritten (steps : List (Nat × Text)) (tree : Tree) :
    tree.edit steps =
      tree.mapFrames fun number => Frame.withText (lastWritten steps number) := by
  induction steps using List.reverseRecOn with
  | nil => exact (mapFrames_eq_self fun _ _ => rfl).symm
  | append_singleton steps step inductionHypothesis =>
      obtain ⟨index, doc⟩ := step
      have last : tree.edit (steps ++ [(index, doc)]) = (tree.edit steps).writeDoc index doc := by
        rw [edit, List.foldl_concat, edit]
      rw [last, inductionHypothesis, writeDoc, mapFrames_mapFrames]
      congr 1
      funext number frame
      rw [lastWritten_concat]
      split
      · exact frame.writeDoc_withText doc _
      · rfl

/-- Histories that write the same last text into each construct of a tree leave the same tree. -/
theorem edit_congr
    {tree : Tree}
    {steps others : List (Nat × Text)}
    (same : ∀ number < tree.constructs.length,
      lastWritten steps number = lastWritten others number) :
    tree.edit steps = tree.edit others := by
  rw [edit_eq_mapFrames_lastWritten, edit_eq_mapFrames_lastWritten]
  apply mapFrames_congr
  intro number inside
  rw [same number inside]

/-- An edited tree is the tree as it was with the last text written into each construct.  A step
is a visit that counts the constructs, and a whole history is one such visit.  So it does not
matter what was written before the last text or where there is no construct, in which order
different constructs were written into, or that a text is written again. -/
theorem edit_by_last_texts (tree : Tree) :
    (∀ index doc, tree.writeDoc index doc =
        (tree.visit (.numbering fun number => if number = index then some doc else none) 0).1) ∧
      (∀ steps, tree.edit steps = (tree.visit (.numbering (lastWritten steps)) 0).1) ∧
        (∀ steps others,
          (∀ number < tree.constructs.length,
            lastWritten steps number = lastWritten others number) →
          tree.edit steps = tree.edit others) ∧
        (∀ steps, tree.edit steps =
          tree.edit (steps.filter fun step => step.1 < tree.constructs.length)) ∧
        (∀ steps others : List (Nat × Text),
          (∀ number, (steps.filter fun step => step.1 = number) =
            others.filter fun step => step.1 = number) →
          tree.edit steps = tree.edit others) ∧
        ∀ front index doc back, lastWritten front index = some doc →
          tree.edit (front ++ (index, doc) :: back) = tree.edit (front ++ back) := by
  refine ⟨fun index doc => tree.writeDoc_eq_visit index doc, ?_, fun _ _ => edit_congr, ?_, ?_, ?_⟩
  · intro steps
    rw [visit_numbering, edit_eq_mapFrames_lastWritten]
  · intro steps
    apply edit_congr
    intro number inside
    rw [lastWritten, lastWritten, List.filter_filter]
    congr 2
    apply List.filter_congr
    rintro step -
    by_cases here : step.1 = number
    · simp [here, inside]
    · simp [here]
  · intro steps others same
    apply edit_congr
    intro number _
    rw [lastWritten, lastWritten, same number]
  · intro front index doc back written
    apply edit_congr
    intro number _
    rw [List.append_cons, lastWritten_append, lastWritten_concat, lastWritten_append]
    split
    · next same => rw [same, written]
    · rfl

/-- Texts for the module and for the procedure in it. -/
def plainSteps : List (Nat × Text) :=
  [(0, "Shapes.".toList), (2, "Draws.\r\nTwice.".toList)]

/-- The same texts behind others, and one for a construct that is not there. -/
def tangledSteps : List (Nat × Text) :=
  [(2, "Draws.".toList), (0, []), (2, "Draws.\r\nTwice.".toList), (3, "Nothing.".toList),
    (0, "Shapes.".toList)]

/-- Tangled steps, steps the other way round and a step made again leave the same tree. -/
theorem edit_by_last_texts_nestedTree :
    (∀ number < nestedTree.constructs.length,
        lastWritten tangledSteps number = lastWritten plainSteps number) ∧
      nestedTree.edit tangledSteps = nestedTree.edit plainSteps ∧
      (∀ number, (plainSteps.reverse.filter fun step => step.1 = number) =
        plainSteps.filter fun step => step.1 = number) ∧
      nestedTree.edit plainSteps.reverse = nestedTree.edit plainSteps ∧
      lastWritten plainSteps 0 = some "Shapes.".toList ∧
      nestedTree.edit (plainSteps ++ [(0, "Shapes.".toList)]) = nestedTree.edit plainSteps := by
  obtain ⟨-, -, agree, -, reorder, again⟩ := edit_by_last_texts nestedTree
  have sameTexts : ∀ number < nestedTree.constructs.length,
      lastWritten tangledSteps number = lastWritten plainSteps number := by
    decide +kernel
  have sameSteps : ∀ number, (plainSteps.reverse.filter fun step => step.1 = number) =
      plainSteps.filter fun step => step.1 = number := by
    intro number
    by_cases isModule : 0 = number
    · subst isModule
      rfl
    · simp [plainSteps, List.filter_cons, isModule]
  have written : lastWritten plainSteps 0 = some "Shapes.".toList := by decide
  have repeated := again plainSteps 0 "Shapes.".toList [] written
  rw [List.append_nil] at repeated
  exact ⟨sameTexts, agree _ _ sameTexts, sameSteps, reorder _ _ sameSteps, written, repeated⟩

end Tree
end FortranDocs
