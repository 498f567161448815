import MapHighlight.Reader
import MapHighlight.Text.Utf8
import MapHighlight.UnixPath

/-!
# File trees

The files under the directory in which the program runs, as far as it can tell: what opening a path
and reading from it leads to. Directories can be opened like files but not read.
-/

namespace MapHighlight

/-- What opening a path leads to. -/
inductive Opened where
  /-- A file with its bytes. -/
  | file (bytes : List UInt8)
  /-- A directory. -/
  | directory
  /-- An error. -/
  | failed (error : InputError)
deriving DecidableEq, Repr

/-- A reader for what was opened, unless that is an error. -/
def Opened.reader : Opened → Except InputError Reader
  | file bytes => .ok (.ofBytes bytes)
  | directory => .ok ⟨[.failure (.system .isADirectory)], 0⟩
  | failed error => .error error

/-- What stands at a place of a file tree. -/
inductive FileTree.Entry where
  /-- A file with its bytes. -/
  | file (bytes : List UInt8)
  /-- A directory, which may hold further entries. -/
  | directory
deriving DecidableEq, Repr

/-- A file tree: entries at places, which are sequences of names. The directories that lead to an
entry need no entry of their own. -/
structure FileTree where
  /-- The entries. -/
  entries : List (List (List UInt8) × FileTree.Entry) := []
deriving DecidableEq, Repr

namespace FileTree

/-- The tree with an entry at a path. -/
def insert (tree : FileTree) (path : List UInt8) (entry : Entry) : FileTree :=
  ⟨(UnixPath.components path, entry) :: tree.entries⟩

/-- What stands at a place. -/
def entry? (tree : FileTree) (place : List (List UInt8)) : Option Entry :=
  match tree.entries.lookup place with
  | some entry => some entry
  | none =>
    if place.isEmpty || tree.entries.any fun (other, _) => place.isPrefixOf other then
      some .directory
    else none

/-- A place on the way through a path: inside the tree, or so many directories above it. -/
inductive Standing where
  /-- At a place inside the tree. -/
  | inside (place : List (List UInt8))
  /-- In the directory so many levels above the one in which the tree begins. -/
  | above (levels : Nat)
deriving DecidableEq, Repr

/-- What can be reached where one stands. Directories above the tree are known to exist. -/
def entryAt? (tree : FileTree) : Standing → Option Entry
  | .inside place => tree.entry? place
  | .above _ => some .directory

/-- The standing after one component of a path, from a directory. What stands beside the tree is
unknown and taken not to exist. -/
def enter (standing : Standing) (component : List UInt8) : Option Standing :=
  if component.isEmpty || component == UnixPath.here then some standing
  else if component == UnixPath.above then
    match standing with
    | .inside [] => some (.above 1)
    | .inside (name :: names) => some (.inside (name :: names).dropLast)
    | .above levels => some (.above (levels + 1))
  else
    match standing with
    | .inside place => some (.inside (place ++ [component]))
    | .above _ => none

/-- Follows the components of a path, each of which has to be looked up in a directory. -/
def follow (tree : FileTree) (standing : Standing) : List (List UInt8) → Except SystemError Entry
  | [] =>
    match tree.entryAt? standing with
    | some entry => .ok entry
    | none => .error .noSuchFile
  | component :: others =>
    match tree.entryAt? standing with
    | none => .error .noSuchFile
    | some (.file _) => .error .notADirectory
    | some .directory =>
      match enter standing component with
      | some next => tree.follow next others
      | none => .error .noSuchFile

/-- What opening a path leads to. A path that begins with a slash begins far above the tree, and
the empty path leads nowhere. -/
def opened (tree : FileTree) (path : List UInt8) : Opened :=
  let standing : Standing :=
    if path.head? == some UnixPath.slash then .above path.length else .inside []
  if path.isEmpty then .failed (.system .noSuchFile)
  else
    match tree.follow standing (path.splitOn UnixPath.slash) with
    | .ok (.file bytes) => .file bytes
    | .ok .directory => .directory
    | .error error => .failed (.system error)

end FileTree

end MapHighlight
