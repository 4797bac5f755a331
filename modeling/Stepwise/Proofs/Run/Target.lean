import Stepwise.Proofs.Ledger.Recorded
import Stepwise.Proofs.Script.Operations

/-!
# Runs in either direction

A run goes up or down, as far as its target says. Whatever kinds of calls the bodies of a registry
make, a run makes no others but those on its ledger (`Migrator.calls_migrate`).
-/

namespace Stepwise

/-- In which direction a run goes, and how far. -/
inductive RunTarget where
  | up (target : UpTarget)
  | down (target : DownTarget)
deriving DecidableEq, Repr

def RunTarget.direction : RunTarget → Direction
  | .up _ => .up
  | .down _ => .down

def Plan.ofTarget (registry : Registry) (applied : IdSet) : RunTarget → Except MigrationError Plan
  | .up target => Plan.up registry applied target
  | .down target => Plan.down registry applied target

def Migrator.migrate (migrator : Migrator) (target : RunTarget) (clock : Clock) :
    Attempt MigrationError RunReport :=
  match target with
  | .up target => migrator.up target clock
  | .down target => migrator.down target clock

/-- What a run does with each migration, by the entries in the ledger before it. -/
def Pass.ofTarget (entries : List LedgerEntry) : RunTarget → Pass
  | .up _ => .apply (LedgerEntry.latestBatch entries + 1)
  | .down _ => .revert

theorem Pass.direction_ofTarget (entries : List LedgerEntry) (target : RunTarget) :
    (Pass.ofTarget entries target).direction = target.direction := by
  cases target <;> rfl

/-- The write to the ledger that follows a body. -/
def Pass.write (pass : Pass) (ledger : Ledger) (now : Instant) (m : Migration) :
    Attempt MigrationError Unit :=
  match pass with
  | .apply batch => ledger.record { id := m.id, appliedAt := now, batch }
  | .revert => ledger.erase m.id

theorem Migrator.step_eq (ledger : Ledger) (pass : Pass) (now : Instant) (m : Migration) :
    step ledger pass now m = (do
      ExceptT.adapt (.step m.id pass.direction) (m.body pass.direction)
      pass.write ledger now m) := by
  cases pass <;> rfl

/-- Go through the plan of a run; an empty one takes no batch. -/
def Migrator.goThrough (migrator : Migrator) (target : RunTarget) (clock : Clock)
    (entries : List LedgerEntry) (plan : Plan) : Attempt MigrationError RunReport :=
  if plan.steps.isEmpty then
    return { direction := target.direction, batch := none, completed := [], failure := none }
  else ExceptT.lift (migrator.execute (Pass.ofTarget entries target) clock plan)

/-- A run in either direction reads the ledger, plans, and goes through the plan. -/
theorem Migrator.migrate_eq (migrator : Migrator) (target : RunTarget) (clock : Clock) :
    migrator.migrate target clock = (do
      let entries ← migrator.ledger.entries
      let plan ← Attempt.ofResult
        (Plan.ofTarget migrator.registry (LedgerEntry.ids entries) target)
      migrator.goThrough target clock entries plan) := by
  cases target with
  | up target => rfl
  | down target =>
    simp only [migrate, down, planDown, Ledger.ids, bind_assoc, pure_bind]
    refine bind_congr fun entries => bind_congr fun plan => ?_
    rw [goThrough]
    split
    · next empty =>
      rw [execute, List.isEmpty_iff.mp empty]
      rfl
    · rfl

/-- Whether all calls of all bodies are of a kind. -/
def Registry.Calls (registry : Registry) (p : Call → Prop) : Prop :=
  ∀ m ∈ registry.migrations, ∀ direction, (m.body direction).run.Calls p

/-- Whether the bodies write to other collections only. -/
abbrev Registry.Spares (registry : Registry) (name : String) : Prop :=
  registry.Calls fun c => c.isWrite = true → c.collection ≠ name

theorem Plan.mem_migrations {registry : Registry} {applied : IdSet} {target : RunTarget}
    {plan : Plan} (planned : Plan.ofTarget registry applied target = .ok plan) {m : Migration}
    (member : m ∈ plan.steps) : m ∈ registry.migrations := by
  cases target with
  | up target =>
    obtain ⟨limit, steps⟩ := Plan.steps_up planned
    rw [steps] at member
    exact (List.mem_filter.mp member).1
  | down target => exact ((Plan.steps_down planned).2 m member).1

namespace Migrator

variable {p : Call → Prop}

/-- Whether all calls of the ledger itself are of a kind. -/
structure LedgerCalls (ledger : Ledger) (p : Call → Prop) : Prop where
  read : p (.find ledger.collection [])
  record : ∀ document, p (.insert ledger.collection document)
  erase : ∀ filter, p (.deleteFirst ledger.collection filter)

theorem calls_entries {ledger : Ledger} (own : LedgerCalls ledger p) :
    ledger.entries.run.Calls p := by
  refine Attempt.calls_bind (Attempt.calls_request own.read) fun documents => ?_
  split
  · trivial
  · trivial

theorem calls_write {ledger : Ledger} (own : LedgerCalls ledger p) (pass : Pass) (now : Instant)
    (m : Migration) : (pass.write ledger now m).run.Calls p := by
  cases pass with
  | apply batch => exact Attempt.calls_request (own.record _)
  | revert => exact Attempt.calls_bind (Attempt.calls_request (own.erase _)) fun _ => trivial

private theorem calls_step {ledger : Ledger} (own : LedgerCalls ledger p) {pass : Pass}
    (now : Instant) {m : Migration} (body : (m.body pass.direction).run.Calls p) :
    (step ledger pass now m).run.Calls p := by
  rw [step_eq]
  exact Attempt.calls_bind (Attempt.calls_adapt body) fun _ => calls_write own pass now m

private theorem calls_steps {ledger : Ledger} (own : LedgerCalls ledger p) {pass : Pass}
    (clock : Clock) {migrations : List Migration}
    (bodies : ∀ m ∈ migrations, (m.body pass.direction).run.Calls p) :
    (steps ledger pass clock migrations).Calls p := by
  induction migrations generalizing clock with
  | nil => trivial
  | cons m rest ih =>
    obtain ⟨body, others⟩ := List.forall_mem_cons.mp bodies
    refine (calls_step own (clock 0) body).bind fun result => ?_
    cases result with
    | error reason => trivial
    | ok _ => exact (ih _ others).bind fun _ => trivial

/-- A run makes no calls but those of the bodies and those of its ledger. -/
theorem calls_migrate {migrator : Migrator} (own : LedgerCalls migrator.ledger p)
    (bodies : migrator.registry.Calls p) (target : RunTarget) (clock : Clock) :
    (migrator.migrate target clock).run.Calls p := by
  rw [migrate_eq]
  refine Attempt.calls_bind (calls_entries own) fun entries => ?_
  cases planned : Plan.ofTarget migrator.registry (LedgerEntry.ids entries) target with
  | error reason => trivial
  | ok plan =>
    show (migrator.goThrough target clock entries plan).run.Calls p
    rw [goThrough]
    split
    · trivial
    · refine Attempt.calls_lift ((calls_steps own clock fun m member => ?_).bind fun _ => trivial)
      exact bodies m (Plan.mem_migrations planned member) _

end Migrator

/-- A migrator of two migrations that create a collection each. -/
def Migrator.two : Migrator where
  registry := (Registry.empty.insert (Definition.creating "20250102-orders" "orders").toMigration)
    |>.insert (Definition.creating "20250101-users" "users").toMigration
  ledger := ⟨"migrations"⟩

theorem Migrator.mem_two {m : Migration} (member : m ∈ Migrator.two.registry.migrations) :
    ∃ id name, name ≠ "migrations" ∧ m = (Definition.creating id name).toMigration := by
  obtain rfl | last := List.mem_cons.mp member
  · exact ⟨_, _, by decide, rfl⟩
  · obtain rfl := List.mem_singleton.mp last
    exact ⟨_, _, by decide, rfl⟩

theorem Migrator.avoids_two : Migrator.two.registry.Calls (·.Within (· ≠ "migrations")) := by
  intro m member direction
  obtain ⟨id, name, other, rfl⟩ := mem_two member
  exact Definition.avoids_creating other direction

end Stepwise
