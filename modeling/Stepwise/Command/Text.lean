import Stepwise.Command.Basic
import Stepwise.Files.Name
import Stepwise.Json.Text
import Stepwise.Status.Format

/-!
# Texts of commands

The lines in which plans, runs and reports are printed.
-/

namespace Stepwise

/-- How long the steps of a run and the whole run took, in milliseconds. -/
structure Timing where
  step : Nat → Nat := fun _ => 0
  total : Nat := 0

def Plan.lines (plan : Plan) : List String :=
  if plan.steps.isEmpty then ["Nothing to " ++ plan.direction.name]
  else
    ("Would run " ++ toString plan.steps.length ++ " migration(s) " ++
      plan.direction.name ++ ":") :: plan.ids.map ("  " ++ ·)

namespace RunReport

/-- The lines about the migrations that are done. -/
def stepLines (report : RunReport) (timing : Timing) : List String :=
  report.completed.zipIdx.map fun (id, n) =>
    "  ✅ " ++ report.direction.name ++ " " ++ id ++ " (" ++ toString (timing.step n) ++ "ms)"

/-- The last line about a run that went through its whole plan. -/
def lastLine (report : RunReport) (timing : Timing) : String :=
  if report.completed.isEmpty then "Nothing to " ++ report.direction.name
  else
    "Ran " ++ toString report.completed.length ++ " migration(s) " ++ report.direction.name ++
      " in " ++ toString timing.total ++ "ms"

/-- The text about the step at which a run stopped, after a number of others. -/
def failureText (completed : Nat) (failure : RunFailure) : String :=
  "Migration " ++ failure.id ++ " failed (" ++ failure.direction.name ++ "): " ++
    failure.error.message ++ "\n" ++ toString completed ++
    " migration(s) completed before the failure remain applied\n"

/-- What is printed about a run. -/
def printed (report : RunReport) (timing : Timing) : Printed :=
  match report.failure with
  | none => .ofLines (report.stepLines timing ++ [report.lastLine timing])
  | some failure =>
    { Printed.ofLines (report.stepLines timing) with
      complaints := failureText report.completed.length failure
      success := false }

end RunReport

def UnitStatus.line (unit : UnitStatus) : String :=
  let marked := unit.id ++ (if unit.reversible then "" else " (irreversible)")
  match unit.state with
  | .applied instant batch =>
    "  ✅ " ++ marked ++ "  applied " ++ instant.plainText ++ " in batch " ++ toString batch
  | .pending => "  ⏳ " ++ marked

def LedgerEntry.orphanLine (entry : LedgerEntry) : String :=
  "  ⚠️  " ++ entry.id ++ "  applied but missing from the migrations directory"

namespace StatusReport

/-- The lines of a report on the migrations of a directory. -/
def lines (report : StatusReport) (directory : String) : List String :=
  ["Migration Status:", "================"] ++
    (if report.units.isEmpty then ["No migrations found in " ++ directory] else []) ++
    report.units.map UnitStatus.line ++ report.orphans.map LedgerEntry.orphanLine ++
    ["", toString report.appliedIds.length ++ " applied, " ++
      toString report.pendingIds.length ++ " pending"]

/-- What is printed of a report, as JSON or for people. -/
def printed (report : StatusReport) (directory : String) (json : Bool) : Printed :=
  .ofLines (if json then [report.toValue.jsonLines ""] else report.lines directory)

end StatusReport

def FileName.createdLine (path : FileName) : String :=
  "Created migration: " ++ path.shown

def forcedLine (lockName : String) (held : Bool) : String :=
  if held then "Released run lock '" ++ lockName ++ "'"
  else "Run lock '" ++ lockName ++ "' was not held"

end Stepwise
