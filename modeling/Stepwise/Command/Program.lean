import Stepwise.Command.Arguments
import Stepwise.Command.Run

/-!
# The program

One run of the program, from its arguments and environment to what it prints and the files that it
leaves. It ends with zero when all went well, with one when a run stopped at a migration, and with
two when the command was refused.
-/

namespace Stepwise

structure Ending where
  status : Nat
  output : String := ""
  complaints : String := ""
deriving DecidableEq, Repr

def Ending.ofResult : Except CommandError Printed → Ending
  | .ok printed =>
    { status := if printed.success then 0 else 1
      output := printed.output
      complaints := printed.complaints }
  | .error error => { status := 2, complaints := "Error: " ++ error.trail ++ "\n" }

/-- The settings of an environment with those of arguments over them. Both have to be valid. -/
def Arguments.Overrides.config (overrides : Overrides) (setting? : String → Option String) :
    Except ConfigError Config := do
  let settings ← Config.ofEnvironment setting?
  let config := { settings with
    migrationsDir := overrides.migrationsDir.getD settings.migrationsDir
    databaseUrl := overrides.databaseUrl.or settings.databaseUrl
    databaseName := overrides.database.or settings.databaseName }
  config.validate
  return config

namespace Program

def versionText : String :=
  "docshift 0.1.0\n"

def helpText : String :=
  String.join (["Ordered, reversible migrations for document databases", "",
    "Usage: docshift [OPTIONS] <COMMAND>", "",
    "Commands:",
    "  status  Show migration status [--json]",
    "  up      Apply pending migrations [--to <TO>] [--dry-run]",
    "  down    Revert applied migrations [--count <COUNT> | --to <TO>] [--dry-run]",
    "  create  Create a new migration file <NAME>",
    "  unlock  Release a run lock left behind by an interrupted run", "",
    "Options:",
    "  --migrations-dir <MIGRATIONS_DIR>  Directory holding migration files",
    "  --database-url <DATABASE_URL>      Database connection string, or memory://",
    "  --database <DATABASE>              Database name",
    "  --log-json                         Emit logs as JSON",
    "  -h, --help                         Print help",
    "  -V, --version                      Print version"].map (· ++ "\n"))

/-- How the program ends when its arguments name no command to carry out. -/
def ending : Arguments.Stop → Ending
  | .version => { status := 0, output := versionText }
  | .help => { status := 0, output := helpText }
  | .misuse error => { status := 2, complaints := "error: " ++ error.message ++ "\n" }

/-- The settings and the command of a run, or how it ends without one. -/
def prepare (arguments : List String) (setting? : String → Option String) :
    Except Ending (Config × Command) := do
  let (overrides, command) ← (Arguments.parse arguments).mapError ending
  let config ← (overrides.config setting?).mapError fun error => .ofResult (.error (.config error))
  return (config, command)

/-- Run what works on the database on the one that the settings name. -/
def onStore (config : Config) (attempt : Attempt CommandError Printed) :
    Except CommandError Printed := do
  let store ← config.openStore
  (attempt.run.run store).1

/-- What a command prints, and the files after it. -/
def carryOut (w : Workspace) : Command → Except CommandError Printed × FileTree
  | .create name => w.create name
  | .status json => (onStore w.config (w.status json), w.files)
  | .up target dryRun => (onStore w.config (w.up target dryRun), w.files)
  | .down target dryRun => (onStore w.config (w.down target dryRun), w.files)
  | .unlock => (onStore w.config w.unlock, w.files)

/-- Run the program in the workspace that its settings open. -/
def run (arguments : List String) (setting? : String → Option String) (files : FileTree)
    (workspace : Config → Workspace) : Ending × FileTree :=
  match prepare arguments setting? with
  | .error ending => (ending, files)
  | .ok (config, command) =>
    let (result, files) := carryOut (workspace config) command
    (.ofResult result, files)

end Program

end Stepwise
