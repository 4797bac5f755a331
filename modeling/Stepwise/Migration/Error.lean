import Stepwise.Migration.Basic

/-!
# Failures of the migration system

The causes for which loading, planning, recording and running migrations fail, and the text of each.
A failure may have a cause of its own; `trail` is the text followed by those of all causes below it.
-/

namespace Stepwise

inductive FileError where
  | notFound
  | exists
  | notDirectory
  | isDirectory
  | nameTooLong
  | notText
  /-- Any other reason, with its text. -/
  | other (message : String)
deriving DecidableEq, Repr

def FileError.message : FileError → String
  | .notFound => "No such file or directory (os error 2)"
  | .exists => "File exists (os error 17)"
  | .notDirectory => "Not a directory (os error 20)"
  | .isDirectory => "Is a directory (os error 21)"
  | .nameTooLong => "File name too long (os error 36)"
  | .notText => "stream did not contain valid UTF-8"
  | .other message => message

/-- Why loading, planning, recording or running migrations failed. -/
inductive MigrationError where
  | duplicateId (id : String)
  | invalidId (id : String)
  /-- The ledger already has an entry. -/
  | duplicateApply (id : String)
  /-- The ledger has an entry for which the registry has no migration. -/
  | missingUnit (id : String)
  | irreversible (id reason : String)
  /-- A body failed. -/
  | step (id : String) (direction : Direction) (cause : StoreError)
  | unknownTarget (id : String)
  | lockHeld (name owner acquiredAt : String)
  | invalidDefinition (path reason : String)
  /-- The ledger could not be read or written. -/
  | ledger (cause : StoreError)
  | store (cause : StoreError)
  | file (cause : FileError)
deriving DecidableEq, Repr

namespace MigrationError

def message : MigrationError → String
  | .duplicateId id => "Duplicate migration id '" ++ id ++ "' in registry"
  | .invalidId id =>
    "Invalid migration id '" ++ id ++
      "': expected <timestamp>-<slug>, e.g. 20250101120000-create_users"
  | .duplicateApply id => "Migration '" ++ id ++ "' is already recorded in the ledger"
  | .missingUnit id => "Ledger references migration '" ++ id ++ "' which is not in the registry"
  | .irreversible id reason => "Migration '" ++ id ++ "' is irreversible: " ++ reason
  | .step id direction cause =>
    "Migration '" ++ id ++ "' failed while running " ++ direction.name ++ ": " ++ cause.message
  | .unknownTarget id => "Target migration '" ++ id ++ "' is unknown"
  | .lockHeld name owner acquiredAt =>
    "Run lock '" ++ name ++ "' is held by '" ++ owner ++ "' since " ++ acquiredAt
  | .invalidDefinition path reason => "Invalid migration definition in " ++ path ++ ": " ++ reason
  | .ledger cause => "Ledger error: " ++ cause.message
  | .store cause => "Store error: " ++ cause.message
  | .file cause => "IO error: " ++ cause.message

/-- The migration that a failure concerns, if it concerns one. -/
def id? : MigrationError → Option String
  | .duplicateId id | .invalidId id | .duplicateApply id | .missingUnit id | .irreversible id _
  | .step id _ _ | .unknownTarget id => some id
  | _ => none

/-- The failed call to a store that caused a failure. -/
def storeCause? : MigrationError → Option StoreError
  | .step _ _ cause | .ledger cause | .store cause => some cause
  | _ => none

/-- The text of what caused a failure. -/
def cause? : MigrationError → Option String
  | .file cause => some cause.message
  | error => error.storeCause?.map StoreError.message

/-- The texts of a failure and of what caused it. -/
def trail (error : MigrationError) : String :=
  match error.cause? with
  | some cause => error.message ++ ": " ++ cause
  | none => error.message

end MigrationError

end Stepwise
