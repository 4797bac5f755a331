import Stepwise.Ledger
import Stepwise.Plan

/-!
# Runs

A migrator brings a database up or down with the migrations of a registry, by the entries of a
ledger. A run goes through its plan in order: it starts a body only after the step before is
recorded, and stops at the first failure. What is done until then stays, and is reported.
-/

namespace Stepwise

/-- The readings of the clock in a run, one for each step of the plan. -/
abbrev Clock := Nat → Instant

/-- What a run does with each migration of its plan. -/
inductive Pass where
  /-- Run it up and record it in the batch. -/
  | apply (batch : Int)
  /-- Run it down and remove its record. -/
  | revert
deriving DecidableEq, Repr

namespace Pass

def direction : Pass → Direction
  | .apply _ => .up
  | .revert => .down

/-- The batch that a pass records. -/
def batch? : Pass → Option Int
  | .apply batch => some batch
  | .revert => none

end Pass

/-- The step at which a run stopped, and why. -/
structure RunFailure where
  id : String
  direction : Direction
  error : MigrationError
deriving DecidableEq, Repr

structure RunReport where
  direction : Direction
  /-- The batch in which migrations were recorded; none for a run down or an empty plan. -/
  batch : Option Int
  /-- The identifiers of the migrations that are done, in order. -/
  completed : List String
  failure : Option RunFailure
deriving DecidableEq, Repr

namespace RunReport

/-- Whether the run went through its whole plan. -/
def isSuccess (report : RunReport) : Bool :=
  report.failure.isNone

def failedId? (report : RunReport) : Option String :=
  report.failure.map (·.id)

end RunReport

/-- A registry of migrations and the ledger of those applied. -/
structure Migrator where
  registry : Registry
  ledger : Ledger

namespace Migrator

/-- Run the body of a migration and then write the ledger. -/
def step (ledger : Ledger) (pass : Pass) (now : Instant) (m : Migration) :
    Attempt MigrationError Unit := do
  ExceptT.adapt (.step m.id pass.direction) (m.body pass.direction)
  match pass with
  | .apply batch => ledger.record { id := m.id, appliedAt := now, batch }
  | .revert => ledger.erase m.id

/-- Go through migrations until a step fails: the identifiers of those done, and the failure. -/
def steps (ledger : Ledger) (pass : Pass) (clock : Clock) :
    List Migration → Script (List String × Option RunFailure)
  | [] => return ([], none)
  | m :: rest => do
    match ← (step ledger pass (clock 0) m).run with
    | .error error => return ([], some ⟨m.id, pass.direction, error⟩)
    | .ok () =>
      let (completed, failure) ← steps ledger pass (fun n => clock (n + 1)) rest
      return (m.id :: completed, failure)

def execute (migrator : Migrator) (pass : Pass) (clock : Clock) (plan : Plan) :
    Script RunReport := do
  let (completed, failure) ← steps migrator.ledger pass clock plan.steps
  return { direction := pass.direction, batch := pass.batch?, completed, failure }

def planUp (migrator : Migrator) (target : UpTarget) : Attempt MigrationError Plan := do
  let applied ← migrator.ledger.ids
  Attempt.ofResult (Plan.up migrator.registry applied target)

def planDown (migrator : Migrator) (target : DownTarget) : Attempt MigrationError Plan := do
  let applied ← migrator.ledger.ids
  Attempt.ofResult (Plan.down migrator.registry applied target)

/-- Run up: apply what is pending, in a batch of its own. -/
def up (migrator : Migrator) (target : UpTarget) (clock : Clock) :
    Attempt MigrationError RunReport := do
  let entries ← migrator.ledger.entries
  let plan ← Attempt.ofResult (Plan.up migrator.registry (LedgerEntry.ids entries) target)
  if plan.steps.isEmpty then
    return { direction := .up, batch := none, completed := [], failure := none }
  else
    let batch := LedgerEntry.latestBatch entries + 1
    ExceptT.lift (migrator.execute (.apply batch) clock plan)

/-- Run down: revert what is applied, greatest identifier first. -/
def down (migrator : Migrator) (target : DownTarget) (clock : Clock) :
    Attempt MigrationError RunReport := do
  let plan ← migrator.planDown target
  ExceptT.lift (migrator.execute .revert clock plan)

end Migrator

end Stepwise
