import Std.Time.DateTime
import Stepwise.Command.Program

/-!
# The command line

The outer layer of the program: it reads the environment, the clock and the migration files, runs
the program on them, and writes what it leaves. It keeps no log; the level of the log is only
checked with the other settings.
-/

namespace Stepwise.Main

def settingNames : List String :=
  ["DOCSHIFT_MIGRATIONS_DIR", "DOCSHIFT_LEDGER_COLLECTION", "DOCSHIFT_LOCK_COLLECTION",
    "DOCSHIFT_LOCK_NAME", "DOCSHIFT_DATABASE_URL", "DOCSHIFT_DATABASE", "DOCSHIFT_LOG_LEVEL"]

def readEnvironment : IO (List (String × String)) :=
  settingNames.filterMapM fun name => do return (← IO.getEnv name).map (name, ·)

def readClock : IO Instant := do
  let timestamp ← Std.Time.Timestamp.now
  let now := (Std.Time.DateTime.ofTimestampWithZone timestamp Std.Time.TimeZone.UTC).toPlainDateTime
  return {
    date := ⟨now.year, now.month.val.toNat, now.day.val.toNat⟩
    hour := now.hour.val.toNat
    minute := now.minute.val.toNat
    second := now.second.val.toNat
    nanos := now.nanosecond.val.toNat }

/-- A name under which nobody else takes the lock. -/
def readOwner : IO String := do
  let octets ← IO.getRandomBytes 16
  return String.join (octets.toList.map fun octet => Store.hexGroup 2 octet.toNat)

/-- The directory at a path with its files, or the file there. -/
def readFiles (path : String) : IO FileTree := do
  let name := FileName.ofString path
  let place := System.mkFilePath [path]
  if ← place.isDir then
    let mut files := (({} : FileTree).makeDirectories name).2
    for entry in ← place.readDir do
      let file := FileName.join name (FileName.ofString entry.fileName)
      if ← entry.path.isDir then
        files := (files.makeDirectories file).2
      else
        let content ←
          if Directory.isMigrationName (FileName.ofString entry.fileName) then
            IO.FS.readBinFile entry.path
          else pure .empty
        files := (files.write file content.toList).toOption.getD files
    return files
  else if ← place.pathExists then
    return (FileTree.write {} name []).toOption.getD {}
  else
    return {}

/-- Write the files of a directory that were not there before. -/
def writeFiles (path : String) (before after : FileTree) : IO Unit := do
  let name := FileName.ofString path
  let had (file : FileName) : Bool := before.contains (FileName.join name file)
  if after.contains name && !before.contains name then
    IO.FS.createDirAll path
  for (file, node) in (after.list name).toOption.getD [] do
    match node with
    | .file content =>
      if !had file then
        IO.FS.writeBinFile (System.mkFilePath [path, file.shown]) ⟨content.toArray⟩
    | .directory _ => pure ()

/-- Run the program on arguments. -/
def run (arguments : List String) : IO Ending := do
  let environment ← readEnvironment
  match Program.prepare arguments (NamedList.get? environment) with
  | .error ending => return ending
  | .ok (config, command) =>
    let files ← readFiles config.migrationsDir
    let now ← readClock
    let workspace : Workspace := { config, files, clock := fun _ => now, owner := ← readOwner }
    let (result, after) := Program.carryOut workspace command
    writeFiles config.migrationsDir files after
    return .ofResult result

end Stepwise.Main

def main (arguments : List String) : IO UInt32 := do
  let ending ← Stepwise.Main.run arguments
  IO.print ending.output
  IO.eprint ending.complaints
  return ending.status.toUInt32
