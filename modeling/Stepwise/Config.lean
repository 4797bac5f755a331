import Stepwise.Text.Blank

/-!
# Configuration

Where migrations are kept, where they are recorded and locked, and which database they change. The
configuration is read from an environment over the defaults; it is valid when the names are not
blank, ledger and lock are kept apart, and the level of the log is one of the known ones.
-/

namespace Stepwise

/-- Why a configuration cannot be used. -/
inductive ConfigError where
  | missing (field hint : String)
  | invalid (field value expected : String)
deriving DecidableEq, Repr

def ConfigError.message : ConfigError → String
  | .missing field hint => "Missing required field: " ++ field ++ ". " ++ hint
  | .invalid field value expected =>
    "Invalid value for field '" ++ field ++ "': '" ++ value ++ "'. Expected: " ++ expected

/-- The settings of the migration system. -/
structure Config where
  /-- The directory of the migration files. -/
  migrationsDir : String := "migrations"
  ledgerCollection : String := "docshift_migrations"
  lockCollection : String := "docshift_locks"
  lockName : String := "migrations"
  /-- How to connect to the database. -/
  databaseUrl : Option String := none
  databaseName : Option String := none
  logLevel : String := "info"
deriving DecidableEq, Repr

namespace Config

def logLevels : List String :=
  ["trace", "debug", "info", "warn", "error"]

/-- Refuse a name that is blank. -/
def requireName (field value : String) : Except ConfigError Unit :=
  if Text.isBlankText value then .error (.invalid field value "a non-empty name") else .ok ()

def validate (config : Config) : Except ConfigError Unit := do
  requireName "ledger_collection" config.ledgerCollection
  requireName "lock_collection" config.lockCollection
  requireName "lock_name" config.lockName
  if config.ledgerCollection = config.lockCollection then
    throw (.invalid "lock_collection" config.lockCollection
      "a collection distinct from the ledger collection")
  if config.logLevel.toLower ∉ logLevels then
    throw (.invalid "log_level" config.logLevel "trace, debug, info, warn, or error")

/-- The settings that an environment makes over the defaults, whether valid or not. -/
def ofVariables (setting? : String → Option String) : Config :=
  let defaults : Config := {}
  { migrationsDir := (setting? "DOCSHIFT_MIGRATIONS_DIR").getD defaults.migrationsDir
    ledgerCollection := (setting? "DOCSHIFT_LEDGER_COLLECTION").getD defaults.ledgerCollection
    lockCollection := (setting? "DOCSHIFT_LOCK_COLLECTION").getD defaults.lockCollection
    lockName := (setting? "DOCSHIFT_LOCK_NAME").getD defaults.lockName
    databaseUrl := setting? "DOCSHIFT_DATABASE_URL"
    databaseName := setting? "DOCSHIFT_DATABASE"
    logLevel := (setting? "DOCSHIFT_LOG_LEVEL").getD defaults.logLevel }

/-- The valid configuration that an environment makes over the defaults. -/
def ofEnvironment (setting? : String → Option String) : Except ConfigError Config := do
  let config := ofVariables setting?
  config.validate
  return config

/-- How to connect to the database. -/
def requireUrl (config : Config) : Except ConfigError String :=
  match config.databaseUrl with
  | some url => .ok url
  | none => .error (.missing "database_url"
      "Set DOCSHIFT_DATABASE_URL or pass --database-url (use memory:// for a scratch store)")

end Config

end Stepwise
