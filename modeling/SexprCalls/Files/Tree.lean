import SexprCalls.Files
import SexprCalls.Files.Path

/-!
# File trees

A file system held as a value: a tree with the files and directories below the
root, and the current directory in it, where the paths start that do not start at
the root.
-/

namespace SexprCalls

/-- A file with its bytes, a file that may not be read, or a directory with its
named entries. -/
inductive FileTree where
  | file (data : Bytes)
  | locked
  | directory (entries : List (Bytes × FileTree))

namespace FileTree

def empty : FileTree := .directory []

def isDirectory : FileTree → Bool
  | .directory _ => true
  | _ => false

/-- The entries of a directory; a file has none. -/
def entries : FileTree → List (Bytes × FileTree)
  | .directory entries => entries
  | _ => []

/-- The tree with a change made at the end of a sequence of names; the
directories on the way are made where they are missing. -/
def changeAt (change : FileTree → FileTree) : List Bytes → FileTree → FileTree
  | [], tree => change tree
  | name :: rest, tree =>
      let child := (tree.entries.lookup name).getD empty
      .directory
        ((name, changeAt change rest child) ::
          tree.entries.filter fun entry => entry.1 ≠ name)

/-- The names on a path to a place inside the tree. -/
def names (path : Bytes) : List Bytes :=
  (Path.parts path).filter fun part => part ≠ [] ∧ part ≠ Path.hereDots

def addFile (tree : FileTree) (path data : Bytes) : FileTree :=
  changeAt (fun _ => .file data) (names path) tree

/-- The tree with one more directory; one that is there already stays. -/
def addDirectory (tree : FileTree) (path : Bytes) : FileTree :=
  changeAt (fun old => .directory old.entries) (names path) tree

/-- Follow the parts of a path from a place in the tree, given with the
directories above it, the nearest first.  Above the root is the root. -/
def follow : (above : List FileTree) → FileTree → List Bytes →
    Except FileProblem FileTree
  | _, here, [] => .ok here
  | above, .directory entries, part :: rest =>
      if part = [] ∨ part = Path.hereDots then
        follow above (.directory entries) rest
      else if part = Path.upDots then
        follow above.tail (above.head?.getD (.directory entries)) rest
      else
        match entries.lookup part with
        | none => .error .missing
        | some child => follow (.directory entries :: above) child rest
  | _, _, _ :: _ => .error .notDirectory

/-- The bytes of what stands at a path. -/
def contentsAt (path : Bytes) : FileTree → Except FileError Bytes
  | .file data => .ok data
  | .locked => .error ⟨.opening, path, .denied⟩
  | .directory _ => .error ⟨.reading, path, .isDirectory⟩

/-- The names of the entries in increasing order, with whether each is a
directory. -/
def listing (entries : List (Bytes × FileTree)) : List (Bytes × Bool) :=
  (entries.map fun (name, child) => (name, child.isDirectory)).mergeSort
    fun first second => first.1 ≤ second.1

end FileTree

/-- A tree from the root on, and the names that lead from the root to the current
directory. -/
structure FileSystem where
  root : FileTree
  current : List Bytes

namespace FileSystem

def resolve (system : FileSystem) (path : Bytes) :
    Except FileProblem FileTree :=
  if path.contains 0 then
    .error .invalidName
  else if path.isEmpty then
    .error .missing
  else if Path.isRooted path then
    FileTree.follow [] system.root (Path.parts path)
  else
    FileTree.follow [] system.root (system.current ++ Path.parts path)

/-- What the file system answers. -/
def files (system : FileSystem) : Files where
  status := fun path =>
    match system.resolve path with
    | .error problem => .error ⟨.status, path, problem⟩
    | .ok (.directory entries) =>
        .ok (.directory (FileTree.listing entries))
    | .ok _ => .ok .file
  contents := fun path =>
    match system.resolve path with
    | .error problem => .error ⟨.opening, path, problem⟩
    | .ok node => node.contentsAt path

end FileSystem

/-- The answers of a file system that has a tree as its current directory and
holds nothing else. -/
def FileTree.files (tree : FileTree) : Files :=
  let name := Bytes.ofString "current"
  FileSystem.files ⟨.directory [(name, tree)], [name]⟩

end SexprCalls
