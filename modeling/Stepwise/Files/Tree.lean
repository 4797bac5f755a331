import Stepwise.Files.Name
import Stepwise.Migration.Error

/-!
# Trees of files

A tree of files below the current directory. A path is followed from there part by part; `..` leads
to the parent of a directory, and that of the current one is itself.
-/

namespace Stepwise

/-- A file with its octets, or a directory. -/
inductive FileNode where
  | file (content : List UInt8)
  | directory (entries : List (FileName × FileNode))
deriving Repr

namespace FileNode

/-- The entries of a directory; a file has none. -/
def entries : FileNode → List (FileName × FileNode)
  | .file _ => []
  | .directory entries => entries

def entry? (node : FileNode) (name : FileName) : Option FileNode :=
  (node.entries.find? (·.1 = name)).map (·.2)

/-- What stands at the end of names. -/
def at? (node : FileNode) : List FileName → Option FileNode
  | [] => some node
  | name :: rest => (node.entry? name).bind (·.at? rest)

/-- The entries with one more, in place of one with the name, in the order of their names. -/
def putEntry (name : FileName) (node : FileNode) :
    List (FileName × FileNode) → List (FileName × FileNode)
  | [] => [(name, node)]
  | (other, old) :: rest =>
    if other = name then (name, node) :: rest
    else if name < other then (name, node) :: (other, old) :: rest
    else (other, old) :: putEntry name node rest

/-- The tree with a node at the end of names, all but the last of which exist. -/
def put (node : FileNode) : List FileName → FileNode → FileNode
  | [], new => new
  | name :: rest, new =>
    .directory
      (putEntry name (((node.entry? name).getD (.directory [])).put rest new) node.entries)

/-- The tree without what stands at the end of names. -/
def remove : List FileName → FileNode → FileNode
  | [], node => node
  | [name], node => .directory (node.entries.filter (·.1 ≠ name))
  | name :: rest, node =>
    match node.entry? name with
    | some child => .directory (putEntry name (remove rest child) node.entries)
    | none => node

end FileNode

/-- A tree of files below the current directory. -/
structure FileTree where
  root : FileNode := .directory []
deriving Repr

namespace FileTree

def maxName : Nat := 255

def maxPath : Nat := 4095

/-- Follow the parts of a path from a place: the names that lead to its end, of which the last need
not exist. -/
def follow (tree : FileTree) (here : List FileName) : List FileName →
    Except FileError (List FileName)
  | [] => .ok here
  | part :: rest =>
    match tree.root.at? here with
    | none => .error .notFound
    | some (.file _) => .error .notDirectory
    | some (.directory _) =>
      if part = [FileName.dot, FileName.dot] then tree.follow here.dropLast rest
      else if maxName < part.length then .error .nameTooLong
      else tree.follow (here ++ [part]) rest

/-- The names that lead to the end of a path. -/
def locate (tree : FileTree) (path : FileName) : Except FileError (List FileName) :=
  if path.isEmpty then .error .notFound
  else if maxPath < path.length then .error .nameTooLong
  else tree.follow [] path.components

/-- What stands at a path. -/
def get (tree : FileTree) (path : FileName) : Except FileError FileNode := do
  let names ← tree.locate path
  match tree.root.at? names with
  | none => throw .notFound
  | some (.file content) =>
    if path.namesDirectory then throw .notDirectory else return .file content
  | some node => return node

def contains (tree : FileTree) (path : FileName) : Bool :=
  match tree.get path with
  | .ok _ => true
  | .error _ => false

def list (tree : FileTree) (path : FileName) : Except FileError (List (FileName × FileNode)) := do
  match ← tree.get path with
  | .file _ => throw .notDirectory
  | .directory entries => return entries

def read (tree : FileTree) (path : FileName) : Except FileError (List UInt8) := do
  match ← tree.get path with
  | .file content => return content
  | .directory _ => throw .isDirectory

def write (tree : FileTree) (path : FileName) (content : List UInt8) :
    Except FileError FileTree := do
  let names ← tree.locate path
  match tree.root.at? names with
  | some (.directory _) => throw .isDirectory
  | _ =>
    if path.namesDirectory then throw .isDirectory
    else return ⟨tree.root.put names (.file content)⟩

/-- Make the directories that parts lead to from a place, as far as they do not exist. -/
def makeDirectoriesFrom (here : List FileName) : List FileName → FileTree →
    Except FileError Unit × FileTree
  | [], tree => (.ok (), tree)
  | part :: rest, tree =>
    match tree.follow here [part] with
    | .error error => (.error error, tree)
    | .ok there =>
      match tree.root.at? there with
      | some (.file _) =>
        (.error (if rest.isEmpty then .exists else .notDirectory), tree)
      | some (.directory _) => makeDirectoriesFrom there rest tree
      | none => makeDirectoriesFrom there rest ⟨tree.root.put there (.directory [])⟩

/-- Make the directories of a path, as far as they do not exist. An empty path needs none. -/
def makeDirectories (tree : FileTree) (path : FileName) : Except FileError Unit × FileTree :=
  if maxPath < path.length then (.error .nameTooLong, tree)
  else makeDirectoriesFrom [] path.components tree

def remove (tree : FileTree) (path : FileName) : FileTree :=
  match tree.locate path with
  | .ok names => ⟨tree.root.remove names⟩
  | .error _ => tree

end FileTree

end Stepwise
