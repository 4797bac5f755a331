import Stepwise.Command.Run
import Stepwise.Proofs.Lock.Order
import Stepwise.Proofs.Run.Target

/-!
# Runs under the lock are serialisable

A command that runs up or down, and not dry, is a run under the lock of its configuration, with the
report printed (`Workspace.run_migrate`). Several of them, on one store and in any order of calls,
hold the lock one at a time, and come to what they come to one after the other in the order in which
they got it. The ledger is read, the plan is made and every body is run while the lock is held, so
nothing of a run depends on what the others do meanwhile.
-/

namespace Stepwise

/-- A run that an owner makes while holding the lock. -/
structure LockedRun where
  registry : Registry
  target : RunTarget
  owner : String
  /-- When the owner asks for the lock. -/
  taken : Instant
  clock : Clock

namespace LockedRun

def session (config : Config) (run : LockedRun) : Session RunReport where
  owner := run.owner
  taken := run.taken
  attempt := (config.migrator run.registry).migrate run.target run.clock

def script (config : Config) (run : LockedRun) : Script (Except MigrationError RunReport) :=
  (run.session config).script config.lock

end LockedRun

namespace Workspace

/-- The command that runs up or down, and not dry. -/
def migrate (w : Workspace) : RunTarget → Attempt CommandError Printed
  | .up target => w.up target false
  | .down target => w.down target false

def lockedRun (w : Workspace) (registry : Registry) (target : RunTarget) : LockedRun where
  registry := registry
  target := target
  owner := w.owner
  taken := w.clock 0
  clock := w.runClock

/-- The command makes its run under the lock and prints the report. -/
theorem run_migrate {w : Workspace} {registry : Registry}
    (loaded : w.config.loadRegistry w.files = .ok registry) (target : RunTarget) :
    (w.migrate target).run = (do
      let result ← (w.lockedRun registry target).script w.config
      return (result.mapError .migration).map (·.printed w.timing)) := by
  have printing : (w.migrate target).run =
      (w.locked ((w.config.migrator registry).migrate target w.runClock) >>=
        fun report => pure (report.printed w.timing) : Attempt CommandError Printed).run := by
    cases target with
    | up target => simp only [migrate, up, migrator, loaded]; rfl
    | down target => simp only [migrate, down, migrator, loaded]; rfl
  rw [printing, ExceptT.run_bind, locked, attempt, ExceptT.run_adapt, map_eq_pure_bind, bind_assoc]
  refine bind_congr fun result => ?_
  cases result <;> rfl

end Workspace

/-- The ledger of a valid configuration is not where the lock is. -/
theorem Config.ledger_ne_lock {config : Config} (valid : config.validate = .ok ()) :
    config.ledgerCollection ≠ config.lockCollection := by
  intro same
  simp only [validate, same, if_true] at valid
  generalize requireName "ledger_collection" _ = ledger at valid
  generalize requireName "lock_collection" _ = lock at valid
  generalize requireName "lock_name" _ = name at valid
  cases ledger <;> cases lock <;> cases name <;> contradiction

/-- A run makes no call that writes the lock but those that take and release it. -/
theorem LockedRun.spares_lock {config : Config} (valid : config.validate = .ok ())
    {run : LockedRun} (spared : run.registry.Spares config.lockCollection) :
    (run.session config).attempt.run.Spares config.lockCollection := by
  have apart := Config.ledger_ne_lock valid
  refine Migrator.calls_migrate ⟨nofun, fun _ _ => apart, fun _ _ => apart⟩ spared _ _

/-- Runs under one lock that take turns in any order: at no point do two of them hold the lock. When
all are done, a run that did not get the lock was refused for it and changed no collection, and the
runs that got it have the results, and leave the collections, that they have and leave one after the
other in the order in which they got it. -/
theorem LockedRun.serialisable {ι : Type} [DecidableEq ι] (config : Config) (runs : ι → LockedRun)
    {s now : Store} {turns : List (Turn ι)}
    {current : ι → Script (Except MigrationError RunReport)}
    (valid : config.validate = .ok ())
    (spared : ∀ i, (runs i).registry.Spares config.lockCollection)
    (ran : Interleaved (fun i => (runs i).script config) s turns current now) :
    let sessions := fun i => (runs i).session config
    let order := Session.acquired config.lock sessions turns
    (∀ i j, Session.Holds config.lock sessions turns i →
      Session.Holds config.lock sessions turns j → i = j) ∧
    ∀ results, (∀ i, current i = .done (results i)) →
      order.Nodup ∧
      (∀ i ∉ order,
        (∃ owner since, results i = .error (.lockHeld config.lockName owner since)) ∧
        ∀ turn ∈ turns, turn.script = i → turn.after.collections = turn.before.collections) ∧
      ((order.mapM fun i => (runs i).script config).run s).1 = order.map results ∧
      ((order.mapM fun i => (runs i).script config).run s).2.collections = now.collections := by
  intro sessions order
  have orderly : Orderly config.lock sessions s turns current now :=
    Interleaved.orderly (fun i => LockedRun.spares_lock valid (spared i)) ran
  refine ⟨fun i j => orderly.holds_unique, ?_⟩
  intro results finished
  refine ⟨orderly.nodup, fun i refused => ⟨?_, fun turn member own => ?_⟩, ?_⟩
  · -- What is left of a session without the lock is nothing only if it was refused.
    have waits := orderly.waiting i refused
    rw [finished i] at waits
    generalize left : (Script.done (results i)) = script at waits
    cases waits with
    | outside => rw [Session.script_eq] at left; contradiction
    | reading => contradiction
    | refused owner since => exact ⟨owner, since, Script.done.inj left⟩
  · rw [← own] at refused
    exact orderly.harmless turn member refused
  · have replayed := orderly.replayed
    rw [Script.mapM_done fun i _ => finished i] at replayed
    exact ⟨replayed.1, replayed.2.collections⟩

/-- Two runs up of a migration that creates a collection, and one run down. -/
def LockedRun.three (i : Fin 3) : LockedRun where
  registry := Registry.empty.insert (Definition.creating "20250101-users" "users").toMigration
  target := if i = 2 then .down (.count 1) else .up .all
  owner := ["first", "second", "third"][i]
  taken := ⟨⟨2025, 1, 1⟩, 8, 0, 0, 0⟩
  clock := fun _ => ⟨⟨2025, 1, 1⟩, 8, 0, 1, 0⟩

/-- The second run asks for the lock while the first has it, the third after the first is done. -/
def LockedRun.threePlayed : Play (Fin 3) (Except MigrationError RunReport) :=
  .ofSchedule (fun i => (three i).script {}) {} [0, 0, 1, 0, 1, 0, 0, 2, 2, 2, 2, 2]

theorem LockedRun.serialisable_three :
    Session.acquired ({} : Config).lock (fun i => (three i).session {}) threePlayed.turns = [0, 2] ∧
    ∃ results : Fin 3 → Except MigrationError RunReport,
      (∀ i, threePlayed.current i = .done (results i)) ∧
      (∃ owner since, results 1 = .error (.lockHeld "migrations" owner since)) ∧
      ((([0, 2] : List (Fin 3)).mapM fun i => (three i).script {}).run {}).1 =
        [results 0, results 2] ∧
      ((([0, 2] : List (Fin 3)).mapM fun i => (three i).script {}).run {}).2.collections =
        threePlayed.now.collections := by
  have order : Session.acquired ({} : Config).lock (fun i => (three i).session {})
      threePlayed.turns = [0, 2] := by decide +kernel
  have ended : ∀ i, (threePlayed.current i).result?.isSome := by decide +kernel
  have finished (i : Fin 3) :
      threePlayed.current i = .done ((threePlayed.current i).result?.get (ended i)) :=
    Script.eq_done_of_result? (Option.some_get (ended i)).symm
  have spared (i : Fin 3) : (three i).registry.Spares "docshift_locks" := by
    intro m member direction
    obtain rfl := List.mem_singleton.mp member
    exact Script.spares_of_avoids (Definition.avoids_creating (by decide) direction)
  have serial := (LockedRun.serialisable {} three (by decide +kernel) spared
    (Play.interleaved_ofSchedule _ {} _)).2 _ finished
  rw [← threePlayed, order] at serial
  obtain ⟨-, refused, results, collections⟩ := serial
  exact ⟨order, _, finished, (refused 1 (by decide)).1, results, collections⟩

end Stepwise
