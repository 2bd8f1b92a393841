import RobotRoutine.Files.Access
import RobotRoutine.Files.Path

/-!
# Files held in memory

A tree of files and directories, kept flat: each is listed under the names that lead to it from the
root. A path is followed name by name, from the root or from the directory that the tree is used
from; what it leads through has to be a directory at every step.
-/

namespace RobotRoutine

/-- Files and directories by the names that lead to them. The root is a directory without being
listed. -/
structure FileTree where
  files : List (List String × ByteArray)
  directories : List (List String)
  /-- Where a path that is not absolute begins. -/
  workingDirectory : List String

namespace FileTree

/-- The tree in which there is only the root. -/
def empty : FileTree := ⟨[], [], []⟩

/-- Whether there is a directory at a place. -/
def hasDirectory (tree : FileTree) (place : List String) : Bool :=
  place.isEmpty || tree.directories.contains place

/-- The file at a place. -/
def file? (tree : FileTree) (place : List String) : Option ByteArray :=
  tree.files.lookup place

/-- Adds a directory and those that it lies in. -/
def addDirectory (tree : FileTree) (place : List String) : FileTree :=
  let parts := (List.range (place.length + 1)).map place.take
  { tree with directories := parts.filter (!tree.hasDirectory ·) ++ tree.directories }

/-- Adds a file, or changes its content. -/
def putFile (tree : FileTree) (place : List String) (content : ByteArray) : FileTree :=
  { tree with files := (place, content) :: tree.files.filter (·.1 != place) }

/-- Adds a file and the directories that it lies in. -/
def addFile (tree : FileTree) (place : List String) (content : ByteArray) : FileTree :=
  (tree.addDirectory place.dropLast).putFile place content

/-- The tree as used from a directory, which is added to it. -/
def usedFrom (tree : FileTree) (place : List String) : FileTree :=
  { tree.addDirectory place with workingDirectory := place }

/-- The place that names lead to from another place. Whether anything is there is not asked of the
last one. The directory above the root is the root. -/
def follow (tree : FileTree) (place : List String) :
    List String → Except FileFailure (List String)
  | [] => .ok place
  | name :: rest =>
    if tree.hasDirectory place then
      if name = "" ∨ name = "." then tree.follow place rest
      else if name = ".." then tree.follow place.dropLast rest
      else if 255 < name.utf8ByteSize then .error .nameTooLong
      else tree.follow (place ++ [name]) rest
    else if (tree.file? place).isSome then .error .notDirectory
    else .error .notFound

/-- The place where a path begins. -/
def origin (tree : FileTree) (path : String) : List String :=
  if Path.isAbsolute path.toList then [] else tree.workingDirectory

/-- The names in a path that can be followed. -/
def pathNames (path : String) : Except FileFailure (List String) :=
  if '\x00' ∈ path.toList then .error .nulInPath
  else if 4096 ≤ path.utf8ByteSize then .error .nameTooLong
  else if path.isEmpty then .error .notFound
  else .ok (Path.names path)

/-- The content of the file at a path. -/
def read (tree : FileTree) (path : String) : Except FileFailure ByteArray := do
  let place ← tree.follow (tree.origin path) (← pathNames path)
  if tree.hasDirectory place then
    throw .isDirectory
  match tree.file? place with
  | some content => return content
  | none => throw .notFound

/-- The tree with a new content for the file at a path. A path that ends in `/` names a
directory. -/
def write (tree : FileTree) (path : String) (content : ByteArray) :
    Except FileFailure FileTree := do
  let names ← pathNames path
  let stem := (names.reverse.dropWhile (· = "")).reverse
  let place ← tree.follow (tree.origin path) stem
  if tree.hasDirectory place ∨ stem.length < names.length then
    throw .isDirectory
  return tree.putFile place content

/-- File access for a program that has a tree as its state. -/
def access : FileAccess (StateM FileTree) where
  read path := return (← get).read path
  write path text := do
    match (← get).write path text.toUTF8 with
    | .ok tree => set tree; return .ok ()
    | .error failure => return .error failure

end FileTree

end RobotRoutine
