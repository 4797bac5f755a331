import Stepwise.Config
import Stepwise.Plan

/-!
# Commands

What the program can be asked to do, what it prints, and why it may refuse. A failure is shown with
the texts of everything that caused it.
-/

namespace Stepwise

/-- What the program is asked to do. -/
inductive Command where
  /-- Tell what is applied and what is pending; as JSON if asked for. -/
  | status (json : Bool)
  | up (target : UpTarget) (dryRun : Bool)
  | down (target : DownTarget) (dryRun : Bool)
  /-- Make a new migration file. -/
  | create (name : String)
  /-- Release the run lock, whoever holds it. -/
  | unlock
deriving DecidableEq, Repr

/-- What a command prints, and whether what it ran went well. -/
structure Printed where
  output : String := ""
  complaints : String := ""
  success : Bool := true
deriving DecidableEq, Repr

def Printed.ofLines (lines : List String) : Printed :=
  { output := String.join (lines.map (· ++ "\n")) }

/-- Why a command was refused. -/
inductive CommandError where
  | config (cause : ConfigError)
  /-- The database could not be opened. -/
  | connection (cause : StoreError)
  /-- The migrations of the directory could not be loaded. -/
  | loading (directory : String) (cause : MigrationError)
  | migration (cause : MigrationError)
deriving DecidableEq, Repr

/-- The texts of a failure and of all that caused it. -/
def CommandError.trail : CommandError → String
  | .config cause => cause.message
  | .connection cause => "failed to connect to MongoDB: " ++ cause.message
  | .loading directory cause =>
    "failed to load migrations from " ++ directory ++ ": " ++ cause.trail
  | .migration cause => cause.trail

end Stepwise
