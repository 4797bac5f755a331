import Stepwise.Files.Tree
import Stepwise.Registry
import Stepwise.Sheet.Json
import Stepwise.Sheet.Yaml

/-!
# The directory of migration files

Every file of the directory with the extension `yaml`, `yml` or `json` holds one migration, whose
identifier is the name of the file without the extension. A directory that does not exist holds
none.
-/

namespace Stepwise.Directory

def extensions : List FileName :=
  ["yaml", "yml", "json"].map FileName.ofString

def isMigrationName (name : FileName) : Bool :=
  name.extension?.any (· ∈ extensions)

/-- The definition in a migration file. -/
def parse (path : FileName) (content : List UInt8) : Except MigrationError Definition := do
  let some text := Text.Utf8.decode? content | throw (.file .notText)
  let invalid (fault : Sheet.Fault) : MigrationError :=
    .invalidDefinition path.shown fault.message
  let some id := path.stem?.bind Text.Utf8.decode? | throw (invalid .namelessFile)
  let isJson := path.extension? = some (FileName.ofString "json")
  let some sheet := if isJson then Sheet.ofJson? text else Sheet.ofYaml? text
    | throw (invalid .malformed)
  (sheet.define id).mapError invalid

/-- The paths and contents of the migration files among the entries of a directory. -/
def files (directory : FileName) (entries : List (FileName × FileNode)) :
    List (FileName × List UInt8) :=
  entries.filterMap fun (name, node) =>
    match node with
    | .file content =>
      if isMigrationName name then some (FileName.join directory name, content) else none
    | .directory _ => none

/-- The definitions in the migration files among the entries of a directory, ascending by
identifier. -/
def definitions (directory : FileName) (entries : List (FileName × FileNode)) :
    Except MigrationError (List Definition) := do
  let all ← (files directory entries).mapM fun (path, content) => parse path content
  return all.mergeSort fun a b => a.id ≤ b.id

/-- The definitions in the directory at a path. -/
def load (tree : FileTree) (directory : FileName) : Except MigrationError (List Definition) :=
  if tree.contains directory then
    match tree.list directory with
    | .ok entries => definitions directory entries
    | .error error => .error (.file error)
  else .ok []

/-- The definition in the file at a path. -/
def loadFile (tree : FileTree) (path : FileName) : Except MigrationError Definition :=
  match tree.read path with
  | .ok content => parse path content
  | .error error => .error (.file error)

def registry (tree : FileTree) (directory : FileName) : Except MigrationError Registry := do
  Registry.ofList ((← load tree directory).map Definition.toMigration)

end Stepwise.Directory
