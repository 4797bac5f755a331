import Stepwise.Command.Text
import Stepwise.RunLock
import Stepwise.Template

/-!
# Running commands

A command works in a workspace: the settings, the files, the clock and the name under which it takes
the run lock. Runs that change the database do so while they hold the lock; a dry run only reads,
and so needs none.
-/

namespace Stepwise

namespace Config

def ledger (config : Config) : Ledger :=
  ⟨config.ledgerCollection⟩

def lock (config : Config) : RunLock :=
  ⟨config.lockCollection, config.lockName⟩

/-- The migrator of a registry with the ledger that the settings name. -/
def migrator (config : Config) (registry : Registry) : Migrator :=
  ⟨registry, config.ledger⟩

/-- The registry of the migration files that the settings name. -/
def loadRegistry (config : Config) (files : FileTree) : Except MigrationError Registry :=
  Directory.registry files (FileName.ofString config.migrationsDir)

/-- How connection strings of scratch stores begin. A scratch store does not outlast the program. -/
def scratchScheme : String :=
  "memory://"

/-- Open the database that the settings name. Only scratch stores can be opened. -/
def openStore (config : Config) : Except CommandError Store := do
  let url ← config.requireUrl.mapError .config
  if url.startsWith scratchScheme then return {}
  else if config.databaseName.isNone then
    throw (.config (.missing "database" "Set DOCSHIFT_DATABASE or pass --database"))
  else throw (.connection (.connection ("no database server can be reached at '" ++ url ++ "'")))

end Config

/-- What a command works with. -/
structure Workspace where
  config : Config
  files : FileTree
  clock : Clock
  /-- The name under which a run takes the lock. -/
  owner : String
  timing : Timing := {}

namespace Workspace

def migrator (w : Workspace) : Except CommandError Migrator :=
  match w.config.loadRegistry w.files with
  | .ok registry => .ok (w.config.migrator registry)
  | .error error => .error (.loading w.config.migrationsDir error)

/-- An attempt of the migration system as that of a command. -/
def attempt {α : Type} (run : Attempt MigrationError α) : Attempt CommandError α :=
  run.adapt .migration

def locked {α : Type} (w : Workspace) (run : Attempt MigrationError α) : Attempt CommandError α :=
  attempt (w.config.lock.during w.owner (w.clock 0) run)

/-- The readings of the clock in a run, after the one when the lock is taken. -/
def runClock (w : Workspace) : Clock :=
  fun n => w.clock (n + 1)

/-- Run up, or print the plan of it. -/
def up (w : Workspace) (target : UpTarget) (dryRun : Bool) : Attempt CommandError Printed := do
  let migrator ← Attempt.ofResult w.migrator
  if dryRun then
    let plan ← attempt (migrator.planUp target)
    return .ofLines plan.lines
  else
    let report ← w.locked (migrator.up target w.runClock)
    return report.printed w.timing

/-- Run down, or print the plan of it. -/
def down (w : Workspace) (target : DownTarget) (dryRun : Bool) : Attempt CommandError Printed := do
  let migrator ← Attempt.ofResult w.migrator
  if dryRun then
    let plan ← attempt (migrator.planDown target)
    return .ofLines plan.lines
  else
    let report ← w.locked (migrator.down target w.runClock)
    return report.printed w.timing

def status (w : Workspace) (json : Bool) : Attempt CommandError Printed := do
  let migrator ← Attempt.ofResult w.migrator
  let report ← attempt migrator.status
  return report.printed w.config.migrationsDir json

/-- Release the lock, whoever holds it. -/
def unlock (w : Workspace) : Attempt CommandError Printed := do
  let held ← attempt w.config.lock.force
  return .ofLines [forcedLine w.config.lockName held]

/-- Make a new migration file: what is printed, and the files after it. -/
def create (w : Workspace) (name : String) : Except CommandError Printed × FileTree :=
  match Template.create w.files (FileName.ofString w.config.migrationsDir) name (w.clock 0) with
  | (.ok path, files) => (.ok (.ofLines [path.createdLine]), files)
  | (.error error, files) => (.error (.migration error), files)

end Workspace

end Stepwise
