import Stepwise.Directory
import Stepwise.Instant.Text

/-!
# New migration files

A new migration is made from a name: its identifier is a stamp of the clock and the slug of the
name, and its file a sheet that says nothing yet but the name.
-/

namespace Stepwise.Template

def id (slug : String) (now : Instant) : String :=
  now.stamp ++ "-" ++ slug

def lines (name id : String) (now : Instant) : List String :=
  ["# Migration: " ++ name,
    "# ID: " ++ id,
    "# Created: " ++ now.plainText,
    "#",
    "# Operations: create_collection, drop_collection, create_index, drop_index,",
    "# insert_documents, update_documents, delete_documents.",
    "# Set `reversible: false` and a `reason` when `down` cannot undo `up`.",
    "",
    "description: " ++ Text.quoted name,
    "reversible: true",
    "",
    "up: []",
    "",
    "down: []"]

def text (name id : String) (now : Instant) : String :=
  String.join ((lines name id now).map (· ++ "\n"))

/-- Make a new migration file in a directory, which is made too if it does not exist: the path of
the file. A name without letters and digits is refused. -/
def create (tree : FileTree) (directory : FileName) (name : String) (now : Instant) :
    Except MigrationError FileName × FileTree :=
  match tree.makeDirectories directory with
  | (.error error, tree) => (.error (.file error), tree)
  | (.ok (), tree) =>
    let slug := MigrationId.slug name
    if slug.isEmpty then (.error (.invalidId name), tree)
    else
      let id := id slug now
      let path := FileName.join directory (FileName.ofString (id ++ ".yaml"))
      match tree.write path (Text.Utf8.encode (text name id now)) with
      | .error error => (.error (.file error), tree)
      | .ok tree => (.ok path, tree)

end Stepwise.Template
