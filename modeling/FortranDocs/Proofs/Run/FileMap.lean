import FortranDocs.Run.Files
import Mathlib.Logic.Function.Basic

/-!
# Files as a map

A storage in which every path leads to a place and only reading can fail.  Several paths may
lead to one place.  Texts that are written one after the other are read back at their own
places, `FileMap.read_writeAll_zip`, and change nothing elsewhere,
`FileMap.read_writeAll_of_apart`.
-/

namespace FortranDocs

/-- A storage as a map from places to texts. -/
structure FileMap (Place : Type) where
  /-- Where a path leads. -/
  place : Path -> Place
  /-- The text at a place, or why there is none to be read. -/
  content : Place -> Except ReadError Text

namespace FileMap

variable {Place : Type}

/-- The text that a path leads to. -/
def read (files : FileMap Place) (path : Path) : Except ReadError Text :=
  files.content (files.place path)

/-- Whether a path leads to anything. -/
def isPresent (files : FileMap Place) (path : Path) : Bool :=
  match files.read path with
  | .error (.access .notFound) => false
  | _ => true

/-- The storage that holds some texts, each at a path of its own. -/
def ofTexts (texts : List (Path × Text)) : FileMap Path where
  place := id
  content := fun path =>
    match texts.lookup path with
    | some text => .ok text
    | none => .error (.access .notFound)

variable [DecidableEq Place]

/-- The storage with the text replaced that a path leads to. -/
def write (files : FileMap Place) (path : Path) (text : Text) : FileMap Place :=
  { files with content := Function.update files.content (files.place path) (.ok text) }

instance : Storage (FileMap Place) where
  isPresent := isPresent
  readText := read
  writeText := fun files path text => .ok (files.write path text)
  makeDirectories := fun files _ => (files, none)

/-- A search that finds the files that are named, and no other ones. -/
instance : Discovery (FileMap Place) where
  isFile := fun files path => (files.read path).isOk
  isDirectory := fun _ _ => false
  walk := fun _ _ _ => []
  glob := fun _ _ => .ok []

/-- Write a text, if there is one. -/
def writeSome (files : FileMap Place) (path : Path) : Option Text -> FileMap Place
  | none => files
  | some text => files.write path text

/-- Write texts one after the other, each to its path. -/
def writeAll (files : FileMap Place) (writes : List (Path × Option Text)) : FileMap Place :=
  writes.foldl (fun files (path, written) => files.writeSome path written) files

variable {files : FileMap Place} {path target : Path}

@[simp] theorem place_writeSome (files : FileMap Place) (target : Path) (written : Option Text) :
    (files.writeSome target written).place = files.place := by
  cases written <;> rfl

/-- What was written is read back; without a text nothing changes. -/
theorem read_writeSome_self (files : FileMap Place) (target : Path) (written : Option Text) :
    (files.writeSome target written).read target =
      written.elim (files.read target) .ok := by
  cases written with
  | none => rfl
  | some text => simp [writeSome, write, read]

theorem read_writeSome_of_ne
    (apart : files.place target ≠ files.place path)
    (written : Option Text) :
    (files.writeSome target written).read path = files.read path := by
  cases written with
  | none => rfl
  | some text => simp [writeSome, write, read, apart.symm]

theorem writeAll_cons
    (files : FileMap Place)
    (target : Path)
    (written : Option Text)
    (writes : List (Path × Option Text)) :
    files.writeAll ((target, written) :: writes) =
      (files.writeSome target written).writeAll writes := rfl

/-- Nothing changes but where a text is written. -/
theorem read_writeAll_of_apart
    {writes : List (Path × Option Text)}
    (apart :
      ∀ target text, (target, some text) ∈ writes → files.place target ≠ files.place path) :
    (files.writeAll writes).read path = files.read path := by
  induction writes generalizing files with
  | nil => rfl
  | cons write rest inductionHypothesis =>
      obtain ⟨target, written⟩ := write
      have restApart : ∀ other text, (other, some text) ∈ rest →
          (files.writeSome target written).place other ≠
            (files.writeSome target written).place path := by
        intro other text present
        rw [place_writeSome]
        exact apart other text (List.mem_cons_of_mem _ present)
      rw [writeAll_cons, inductionHypothesis restApart]
      cases written with
      | none => rfl
      | some text => exact read_writeSome_of_ne (apart target text List.mem_cons_self) _

/-- What is written to different places is read back at each of them. -/
theorem read_writeAll_zip
    {targets : List Path}
    {index : Nat}
    (distinct : (targets.map files.place).Nodup)
    (found : targets[index]? = some target)
    (results : List (Option Text)) :
    (files.writeAll (targets.zip results)).read target =
      results[index]?.join.elim (files.read target) .ok := by
  induction targets generalizing files index results with
  | nil => simp at found
  | cons first rest inductionHypothesis =>
      rw [List.map_cons, List.nodup_cons, List.mem_map] at distinct
      obtain ⟨firstApart, restDistinct⟩ := distinct
      cases results with
      | nil => simp [writeAll]
      | cons written results =>
          rw [List.zip_cons_cons, writeAll_cons]
          cases index with
          | zero =>
              obtain rfl : first = target := Option.some.inj found
              rw [read_writeAll_of_apart, read_writeSome_self]
              · rfl
              · intro other text present
                rw [place_writeSome]
                intro same
                exact firstApart ⟨other, (List.of_mem_zip present).1, same⟩
          | succ index =>
              have restFound : rest[index]? = some target := found
              have targetApart : files.place first ≠ files.place target := by
                intro same
                exact firstApart ⟨target, List.mem_of_getElem? restFound, same.symm⟩
              rw [inductionHypothesis (by simpa using restDistinct) restFound results,
                read_writeSome_of_ne targetApart, List.getElem?_cons_succ]

end FileMap
end FortranDocs
