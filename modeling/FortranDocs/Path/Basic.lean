import FortranDocs.Text.Basic

/-!
# Paths

A path keeps the text in which it was given.  Its components decide which paths
are the same and in which order paths are listed: repeated slashes do not count,
nor does a component `.` anywhere but at the start.
-/

namespace FortranDocs

/-- A path as it was given. -/
structure Path where
  /-- The text of the path. -/
  text : Text
  deriving DecidableEq, Repr

/-- Whether a list stands in front of another one, or has the same place, by the
order of their members: the first members that differ decide, and a list stands in
front of a longer one that starts like it. -/
def inOrder {Member : Type} (precedes : Member -> Member -> Bool) :
    List Member -> List Member -> Bool
  | [], _ => true
  | _ :: _, [] => false
  | left :: leftRest, right :: rightRest =>
      precedes left right && (!precedes right left || inOrder precedes leftRest rightRest)

/-- A component of a path. -/
inductive Component
  | root
  | current
  | parent
  | name (name : Text)
  deriving DecidableEq, Repr

namespace Component

/-- The component that a piece between slashes stands for, behind the start of a
path. -/
def ofPiece? : Text -> Option Component
  | [] => none
  | ['.'] => none
  | ['.', '.'] => some .parent
  | piece => some (.name piece)

/-- A number list by which components are ordered: the root, the current and the
parent directory stand in front of names, and names are ordered by code points. -/
def key : Component -> List Nat
  | .root => [0]
  | .current => [1]
  | .parent => [2]
  | .name text => 3 :: text.map Char.toNat

/-- The order of components. -/
def precedes (left right : Component) : Bool :=
  inOrder Nat.ble left.key right.key

end Component

namespace Path

/-- The pieces of a path between its slashes. -/
def pieces (path : Path) : List Text :=
  Text.splitOn '/' path.text

/-- Whether a path starts at the root. -/
def isAbsolute (path : Path) : Bool :=
  path.text.head? == some '/'

/-- The component that the first piece of a path stands for.  It is empty for the
empty path and in front of the slash of an absolute one. -/
def startOf (path : Path) (first : Text) : Option Component :=
  if first.isEmpty then
    if path.text.isEmpty then none else some .root
  else if first = ['.'] then
    some .current
  else
    Component.ofPiece? first

/-- The components of a path. -/
def components (path : Path) : List Component :=
  match path.pieces with
  | [] => []
  | first :: rest => (path.startOf first).toList ++ rest.filterMap Component.ofPiece?

/-- The order of paths, component by component. -/
def precedes (left right : Path) : Bool :=
  inOrder Component.precedes left.components right.components

/-- Whether two paths have the same components. -/
def same (left right : Path) : Bool :=
  left.components == right.components

/-- A path behind another one.  An absolute path stays as it is. -/
def join (path tail : Path) : Path :=
  if tail.isAbsolute then
    tail
  else if path.text.isEmpty || path.text.getLast? == some '/' then
    ⟨path.text ++ tail.text⟩
  else
    ⟨path.text ++ '/' :: tail.text⟩

/-- A path with a name behind it. -/
def child (path : Path) (name : Text) : Path :=
  path.join ⟨name⟩

/-- Leave out the pieces at the start that are no components. -/
def trimPieces (pieces : List Text) : List Text :=
  pieces.dropWhile fun piece => (Component.ofPiece? piece).isNone

/-- Leave out the pieces at the end that are no components. -/
def trimLastPieces (pieces : List Text) : List Text :=
  (trimPieces pieces.reverse).reverse

/-- The path that a first piece and further pieces make up. -/
def ofPieces (first : Text) (rest : List Text) : Path :=
  if first.isEmpty && rest.isEmpty then
    ⟨['/']⟩
  else
    ⟨Text.joinOn '/' (first :: rest)⟩

/-- The path without its last component; none if there is no component to leave
out, or only the root. -/
def parent? (path : Path) : Option Path :=
  match path.pieces with
  | [] => none
  | first :: rest =>
      match trimPieces rest.reverse with
      | _ :: others => some (ofPieces first (trimPieces others).reverse)
      | [] => if first.isEmpty then none else some ⟨[]⟩

/-- The last component, if it is a name. -/
def fileName? (path : Path) : Option Text :=
  match path.components.getLast? with
  | some (.name name) => some name
  | _ => none

/-- Leave out pieces up to and with a number of components. -/
def dropComponents : (count : Nat) -> List Text -> List Text
  | 0, pieces => trimPieces pieces
  | _ + 1, [] => []
  | count + 1, piece :: rest =>
      if (Component.ofPiece? piece).isNone then
        dropComponents (count + 1) rest
      else
        dropComponents count rest

/-- What follows the components of another path, if the path starts with them. -/
def dropFront? (front path : Path) : Option Path :=
  let count := front.components.length
  if front.components.isPrefixOf path.components then
    match count, path.pieces with
    | 0, first :: rest => some ⟨Text.joinOn '/' (first :: trimLastPieces rest)⟩
    | count + 1, _ :: rest =>
        some ⟨Text.joinOn '/' (trimLastPieces (dropComponents count rest))⟩
    | _, [] => some path
  else
    none

/-- The extension of a file name: what follows its last dot, unless that dot is
the first character. -/
def extensionOf? (name : Text) : Option Text :=
  let reversed := name.reverse
  match reversed.dropWhile (· != '.') with
  | _ :: _ :: _ => some (reversed.takeWhile (· != '.')).reverse
  | _ => none

/-- The extension of a path. -/
def extension? (path : Path) : Option Text :=
  path.fileName?.bind extensionOf?

/-- Whether a path has one of some extensions, in any letter case. -/
def hasExtension (extensions : List Text) (path : Path) : Bool :=
  match path.extension? with
  | none => false
  | some found =>
      extensions.any fun wanted => wanted.map Char.toLower == found.map Char.toLower

/-- The path as it is shown. -/
def display (path : Path) : String :=
  String.ofList path.text

end Path
end FortranDocs
