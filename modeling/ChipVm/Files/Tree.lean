/-
# File trees

Files that are held in memory, and how a path leads to one.  A path is walked name by name, from
the root if it starts with a slash and from the working directory if not:

* `.` and an empty name stay where they are, but only in a directory;
* `..` goes to the directory above, and the root is above itself;
* any other name has to fit into `nameLimit` bytes and to stand in the directory.

A path that holds a NUL character, is empty or does not fit into `pathLimit` bytes is not walked
at all.
-/
import ChipVm.Files.Basic

namespace ChipVm

/-- What can stand at a place of a file tree. -/
inductive FileNode where
  | file (contents : List UInt8)
  | directory
deriving DecidableEq, Repr

/-- A place in a file tree: the names on the way to it, the innermost first. -/
abbrev Place := List String

/-- Files and directories, and the directory that paths start from. -/
structure FileTree where
  /-- Where the working directory is. -/
  workingDirectory : Place
  /-- What stands where.  The working directory and those above it need not be named. -/
  nodes : List (Place × FileNode)
deriving DecidableEq, Repr

/-- A name in a path takes at most this many bytes. -/
abbrev nameLimit : Nat := 255

/-- A path takes at most this many bytes. -/
abbrev pathLimit : Nat := 4095

namespace FileTree

/-- The parts of a path between its slashes, empty ones included. -/
def segments : List Char → List (List Char)
  | [] => [[]]
  | c :: rest =>
    if c = '/' then [] :: segments rest
    else
      match segments rest with
      | [] => [[c]]
      | name :: names => (c :: name) :: names

/-- What stands at a place. -/
def node? (tree : FileTree) (place : Place) : Option FileNode :=
  if place.isSuffixOf tree.workingDirectory then some .directory
  else tree.nodes.lookup place

/-- Goes from a place to where a name leads. -/
def enter (tree : FileTree) (place : Place) (name : String) : Except FileError Place :=
  match tree.node? place with
  | none => .error .notFound
  | some (.file _) => .error .notDirectory
  | some .directory =>
    if name = "" ∨ name = "." then .ok place
    else if name = ".." then .ok place.tail
    else if nameLimit < name.utf8ByteSize then .error .nameTooLong
    else if (tree.node? (name :: place)).isSome then .ok (name :: place)
    else .error .notFound

/-- Where a path starts from. -/
def origin (tree : FileTree) (path : String) : Place :=
  if path.toList.head? = some '/' then [] else tree.workingDirectory

/-- The place that a path leads to. -/
def resolve (tree : FileTree) (path : String) : Except FileError Place :=
  if path.toList.contains '\x00' then .error .nulInPath
  else if path = "" then .error .notFound
  else if pathLimit < path.utf8ByteSize then .error .nameTooLong
  else ((segments path.toList).map String.ofList).foldlM tree.enter (tree.origin path)

/-- The contents of the file at a path. -/
def read (tree : FileTree) : Files := fun path =>
  match tree.resolve path with
  | .error error => .error error
  | .ok place =>
    match tree.node? place with
    | some (.file contents) => .ok contents
    | some .directory => .error .isDirectory
    | none => .error .notFound

end FileTree

end ChipVm
