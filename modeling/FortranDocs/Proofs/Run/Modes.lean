import FortranDocs.Proofs.Pass.Course
import FortranDocs.Proofs.Run.Preparation
import FortranDocs.Proofs.Run.Sweep
import FortranDocs.Proofs.Text.Utf8
import Mathlib

/-!
# Three ways to document a source

A source comes from the standard input or from a file, and the result is printed, written over
the file or written below an output directory.  `Run.modes_agree` states that the result is the
same text, for runs with the same settings.  In place nothing is written if nothing was documented,
and then the result is the source: `Tree.eq_of_documented_eq_zero`.
-/

namespace FortranDocs

namespace Tree

/-- A pass that documents nothing leaves the tree as it is. -/
theorem eq_of_documented_eq_zero
    {Memory : Type}
    {engine : Engine Memory}
    {overwrite : Bool}
    {tree result : Tree}
    {memory : Memory}
    {pass : Pass Memory}
    {failure : Option EngineFailure}
    (ran : tree.document engine overwrite memory = (result, pass, failure))
    (nothing : pass.report.documented = 0) :
    result = tree := by
  obtain ⟨course, last, document_eq, -, records⟩ := tree.document_eq engine overwrite memory
  rw [ran] at document_eq
  cases document_eq
  have noText : ∀ decision ∈ course.decisions, decision = none := by
    have none_counted := records.documented
    rw [nothing, Nat.zero_add, eq_comm, List.countP_eq_zero] at none_counted
    intro decision present
    simpa using none_counted decision present
  have keeps : Frame.decided course.decisions = fun _ frame => frame := by
    funext number frame
    unfold Frame.decided
    split
    · next doc found =>
        exact absurd (noText _ (List.mem_of_getElem? found)) (Option.some_ne_none doc)
    · rfl
  rw [keeps]
  exact mapFrames_eq_self fun _ _ => rfl

end Tree

namespace Task

variable {Memory Place : Type} [DecidableEq Place]

/-- A run changes nothing but the targets of its files. -/
theorem read_through
    {task : Task Memory}
    {files : List SourceFile}
    {progress : Progress (FileMap Place) Memory}
    {path : Path}
    (apart :
      ∀ file ∈ files,
        progress.store.place (file.target task.output) ≠ progress.store.place path) :
    (FileStep.through task.step files progress).1.store.read path =
      progress.store.read path := by
  induction files generalizing progress with
  | nil => rfl
  | cons file rest inductionHypothesis =>
      obtain ⟨fileApart, restApart⟩ := List.forall_mem_cons.mp apart
      obtain ⟨-, -, store_eq, -⟩ := step_eq_treat task file progress
      rcases taken : task.step file progress with ⟨next, error⟩
      rw [taken] at store_eq
      dsimp only at store_eq
      have kept : next.store.read path = progress.store.read path := by
        rw [store_eq, FileMap.read_writeSome_of_ne fileApart]
      simp only [FileStep.through, taken]
      cases error with
      | some error => exact kept
      | none =>
          rw [inductionHypothesis, kept]
          rwa [store_eq, FileMap.place_writeSome]

/-- The result for a file that is reached is found at its target when the run is over, unless
a result for a later file goes to the same place. -/
theorem read_target
    {engine : Engine Memory}
    {overwrite : Bool}
    {output : Option Path}
    {file : SourceFile}
    {back : List SourceFile}
    {source : Text}
    {tree result : Tree}
    {progress : Progress (FileMap Place) Memory}
    {pass : Pass Memory}
    (parsed : Tree.parse source = .ok tree)
    (succeeds : tree.document engine overwrite progress.memory = (result, pass, none))
    (reads : progress.store.read file.path = .ok source)
    (apart :
      ∀ later ∈ back,
        progress.store.place (later.target output) ≠
          progress.store.place (file.target output)) :
    let task := document engine overwrite output
    (FileStep.through task.step (file :: back) progress).1.store.read (file.target output) =
      .ok result.source := by
  intro task
  obtain ⟨stop_eq, -, store_eq, -⟩ := step_eq_treat task file progress
  rcases taken : task.step file progress with ⟨next, stop⟩
  rw [taken, reads, treat_document parsed succeeds] at stop_eq store_eq
  dsimp only at stop_eq store_eq
  subst stop_eq
  have nextApart : ∀ later ∈ back,
      next.store.place (later.target output) ≠ next.store.place (file.target output) := by
    rwa [store_eq, FileMap.place_writeSome]
  simp only [FileStep.through, taken]
  rw [read_through nextApart, store_eq]
  cases output with
  | some directory => exact FileMap.read_writeSome_self _ _ _
  | none =>
      cases changed : pass.report.changed with
      | true => exact FileMap.read_writeSome_self _ _ _
      | false =>
          have nothing : pass.report.documented = 0 := by
            simpa [Report.changed] using changed
          rw [Tree.eq_of_documented_eq_zero succeeds nothing, Tree.source_of_parse parsed]
          exact reads

end Task

namespace Run

/-- Where a run over a map of files leaves them. -/
theorem store_overSources
    {Memory Place : Type}
    [DecidableEq Place]
    {engines : Engines Memory}
    {store : FileMap Place}
    {line : CommandLine}
    {settings : Settings}
    {sources : List SourceFile}
    {task : Task Memory}
    (ready : (prepare engines store line settings sources).2 = .ok task)
    (memory : Memory)
    (events : List Event) :
    (overSources engines memory store line settings events sources).store =
      (FileStep.through task.step sources { store, memory, events }).1.store := by
  rcases ran : FileStep.throughAll task.step sources { store, memory, events } with ⟨after, error⟩
  rw [overSources_of_ready ready ran, ← FileStep.fst_throughAll, ran]

/-- A source gets the same result from runs with the same settings, whether it is the standard
input, is documented in place or is documented below an output directory, provided that the engine
is in the same state when it gets there and that no result for a later file goes to the same place.
Without anything documented the result is the source. -/
theorem modes_agree
    {Memory : Type}
    {engines : Engines Memory}
    {settings : Settings}
    {engine : Engine Memory}
    {source : Text}
    {tree result : Tree}
    {memory : Memory}
    {pass : Pass Memory}
    (available : engines settings = .ok engine)
    (parsed : Tree.parse source = .ok tree)
    (succeeds : tree.document engine settings.overwrite memory = (result, pass, none)) :
    (∀ (Store : Type) [Storage Store] [Discovery Store] (store : Store) (line : CommandLine)
        (input : List UInt8),
      let run := overInput engines memory store line settings input
      line.check = false →
      Utf8.decode input = .ok source →
      run.output = result.source ∧ run.verdict = .ok false ∧ run.store = store ∧
      ∀ loaded, Settings.load store line.settings = .ok loaded → settings = loaded.refine line →
        line.paths = [] → withLine engines memory store line input = run) ∧
    (∀ (Place : Type) [DecidableEq Place] (store : FileMap Place) (line : CommandLine)
        (events : List Event) (start : Memory) (front : List SourceFile) (file : SourceFile)
        (back : List SourceFile) (progress : Progress (FileMap Place) Memory),
      let sources := front ++ file :: back
      let run := overSources engines start store line settings events sources
      let task : Task Memory := .document engine settings.overwrite line.output
      line.check = false →
      (line.output.isSome = true → Clash.find? sources = none) →
      FileStep.through task.step front { store, memory := start, events } = (progress, none) →
      progress.memory = memory →
      progress.store.read file.path = .ok source →
      (∀ later ∈ back,
        progress.store.place (later.target line.output) ≠
          progress.store.place (file.target line.output)) →
      run.store.read (file.target line.output) = .ok result.source ∧
      ∀ [Discovery (FileMap Place)], Starts store line settings events sources →
        ∀ input, withLine engines start store line input = run) ∧
    (pass.report.documented = 0 → result.source = source) := by
  refine ⟨?_, ?_, ?_⟩
  · intro Store _ _ store line input run works decoded
    have printed : run = { events := run.events, output := result.source, store } := by
      simp only [run, overInput, StandardInput.source, StandardInput.document, decoded, parsed,
        works, available, succeeds, Bool.false_eq_true, if_false]
    refine ⟨by rw [printed], by rw [printed], by rw [printed], ?_⟩
    rintro loaded loads rfl nothing
    simp only [withLine, loads, nothing, List.isEmpty_nil, if_true, run]
  · intro Place _ store line events start front file back progress sources run task works noClash
      reached memory_eq reads apart
    refine ⟨?_, fun starts input => starts.withLine_eq engines start input⟩
    have ready : (prepare engines store line settings sources).2 = .ok task :=
      prepare_eq_ok_iff.mpr ⟨.document works available, fun _ => noClash⟩
    rw [← memory_eq] at succeeds
    rw [store_overSources ready, FileStep.through_append, reached]
    exact Task.read_target parsed succeeds reads apart
  · intro nothing
    rw [Tree.eq_of_documented_eq_zero succeeds nothing, Tree.source_of_parse parsed]

/-- The nested module stands between a file without constructs and one that is documented
too. -/
theorem modes_agree_nestedTree :
    let engine := Engine.dummy "To do.".toList
    let engines : Engines Unit := fun settings => .ok (Engine.dummy settings.dummyText)
    let settings : Settings := { dummyText := "To do.".toList }
    let result := (Tree.nestedTree.document engine false ()).1
    let sources : List SourceFile := ["a.f90", "b.f90", "c.f90"].map fun name =>
      ⟨⟨name.toList⟩, ⟨name.toList⟩⟩
    let store := FileMap.ofTexts
      [(⟨"a.f90".toList⟩, "x = 1".toList), (⟨"b.f90".toList⟩, Tree.nestedSource),
        (⟨"c.f90".toList⟩, "type c\nend type".toList)]
    let line (paths : List String) (output : Option Path) : CommandLine :=
      { paths := paths.map String.toList, output, dummyText := some "To do.".toList }
    let files := line ["a.f90", "b.f90", "c.f90"]
    let run (line : CommandLine) := withLine engines () store line (Utf8.encode Tree.nestedSource)
    result.source ≠ Tree.nestedSource ∧
      (run (line [] none)).output = result.source ∧
      Starts store (files none) settings [] sources ∧
      (run (files none)).store.read ⟨"b.f90".toList⟩ = .ok result.source ∧
      Starts store (files (some ⟨"out".toList⟩)) settings [] sources ∧
      (run (files (some ⟨"out".toList⟩))).store.read ⟨"out/b.f90".toList⟩ = .ok result.source := by
  intro engine engines settings result sources store line files run
  have succeeds : Tree.nestedTree.document engine false () =
      (result, (Tree.nestedTree.document engine false ()).2.1, none) :=
    Prod.ext rfl (Prod.ext rfl (by decide +kernel))
  have available : engines settings = .ok engine := rfl
  have starts (output : Option Path) : Starts store (files output) settings [] sources :=
    { loads := ⟨{}, by rfl, rfl⟩
      finds := ⟨[], by cbv, rfl⟩
      nonempty := List.cons_ne_nil _ _ }
  obtain ⟨printed, written, -⟩ := modes_agree available Tree.parse_nestedSource succeeds
  have inPlace := written Path store (files none) [] () [⟨⟨"a.f90".toList⟩, ⟨"a.f90".toList⟩⟩]
    ⟨⟨"b.f90".toList⟩, ⟨"b.f90".toList⟩⟩ [⟨⟨"c.f90".toList⟩, ⟨"c.f90".toList⟩⟩] _
    rfl (fun below => absurd below Bool.false_ne_true) (Prod.ext rfl (by decide +kernel)) rfl
    (by decide +kernel) (by decide +kernel)
  have below := written Path store (files (some ⟨"out".toList⟩)) [] ()
    [⟨⟨"a.f90".toList⟩, ⟨"a.f90".toList⟩⟩] ⟨⟨"b.f90".toList⟩, ⟨"b.f90".toList⟩⟩
    [⟨⟨"c.f90".toList⟩, ⟨"c.f90".toList⟩⟩] _
    rfl (fun _ => by rfl) (Prod.ext rfl (by decide +kernel)) rfl (by decide +kernel)
    (by decide +kernel)
  obtain ⟨output_eq, -, -, same⟩ :=
    printed (FileMap Path) store (line [] none) (Utf8.encode Tree.nestedSource) rfl
      (Utf8.decode_encode Tree.nestedSource)
  refine ⟨by decide +kernel, ?_, starts none, ?_, starts _, ?_⟩
  · exact (congrArg Result.output (same {} rfl rfl rfl)).trans output_eq
  · exact (congrArg (fun run : Result (FileMap Path) => run.store.read _)
      (inPlace.2 (starts none) _)).trans inPlace.1
  · exact (congrArg (fun run : Result (FileMap Path) => run.store.read _)
      (below.2 (starts _) _)).trans below.1

end Run
end FortranDocs
