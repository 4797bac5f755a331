import Mathlib.Data.List.Permutation
import Mathlib.Tactic.Tauto
import Stepwise.Proofs.Plan.Bound
import Stepwise.Proofs.Run.Trace

/-!
# Runs that are completed

Runs are completed one after the other when none is refused and none stops at a migration
(`Migrator.completeAll?`). A run that is completed has moved all that was planned in the ledger, and
nothing else (`Migrator.moved_of_completed`). With both runs to an identifier, in whichever order,
the ledger comes to one state (`Migrator.converges`).
-/

namespace Stepwise

namespace Migrator

variable {σ : Type} (v : Service σ) (migrator : Migrator)

/-- The identifiers that runs complete, one after the other, and the state that they leave, if each
goes through its whole plan. -/
def completeAll? : List (RunTarget × Clock) → σ → Option (List String × σ)
  | [], x => some ([], x)
  | (target, clock) :: runs, x =>
    match v.run (migrator.migrate target clock).run x with
    | (.error _, _) => none
    | (.ok report, y) =>
      if report.isSuccess then
        (completeAll? runs y).map fun (completed, z) => (report.completed ++ completed, z)
      else none

variable {v migrator} {target : RunTarget} {clock : Clock} {x y : σ}

theorem completeAll?_cons {runs : List (RunTarget × Clock)} {report : RunReport}
    (ran : v.run (migrator.migrate target clock).run x = (.ok report, y)) :
    completeAll? v migrator ((target, clock) :: runs) x =
      if report.failure = none then
        (completeAll? v migrator runs y).map fun (completed, z) =>
          (report.completed ++ completed, z)
      else none := by
  rw [completeAll?, ran]
  simp only [RunReport.isSuccess, Option.isNone_iff_eq_none]

theorem completeAll?_cons_eq_some {runs : List (RunTarget × Clock)} {completed : List String} :
    completeAll? v migrator ((target, clock) :: runs) x = some (completed, y) ↔
      ∃ report z later, v.run (migrator.migrate target clock).run x = (.ok report, z) ∧
        report.failure = none ∧ completeAll? v migrator runs z = some (later, y) ∧
        completed = report.completed ++ later := by
  cases ran : v.run (migrator.migrate target clock).run x with
  | mk result z =>
    cases result with
    | error error => simp [completeAll?, ran]
    | ok report =>
      simp only [completeAll?_cons ran, Option.ite_none_right_eq_some, Option.map_eq_some_iff,
        Prod.mk.injEq, Except.ok.injEq, Prod.exists]
      constructor
      · rintro ⟨success, later, z, ran, rfl, rfl⟩
        exact ⟨report, _, later, ⟨rfl, rfl⟩, success, ran, rfl⟩
      · rintro ⟨_, _, later, ⟨rfl, rfl⟩, success, ran, rfl⟩
        exact ⟨success, later, y, ran, rfl, rfl⟩

/-- A run that is completed has moved what was planned. -/
theorem moved_of_completed {report : RunReport} (written : migrator.ledger.Written (v.store x))
    (spares : migrator.registry.Spares migrator.ledger.collection)
    (ran : v.run (migrator.migrate target clock).run x = (.ok report, y))
    (success : report.failure = none) :
    ∃ plan,
      Plan.ofTarget migrator.registry (IdSet.ofList (migrator.ledger.recorded (v.store x))) target =
        .ok plan ∧
      report.completed = plan.ids ∧
      migrator.ledger.Moved target.direction plan.steps (v.store x) (v.store y) := by
  have reported : (v.run (migrator.migrate target clock).run x).1 = .ok report := by rw [ran]
  obtain ⟨plan, planned, -, all, -, still, moved⟩ :=
    migrator.holds_of_ok v target clock x written spares reported
  have completed := all success
  rw [ran] at still moved
  rw [completed] at moved
  exact ⟨plan, planned, completed, still, moved⟩

/-- The two runs of a pair that is completed. -/
theorem exists_of_completeAll?_pair {first second : RunTarget} {runs : List (RunTarget × Clock)}
    {completed : List String} (targets : runs.map (·.1) = [first, second])
    (ran : completeAll? v migrator runs x = some (completed, y)) :
    ∃ clock clock' report report' z,
      v.run (migrator.migrate first clock).run x = (.ok report, z) ∧ report.failure = none ∧
      v.run (migrator.migrate second clock').run z = (.ok report', y) ∧ report'.failure = none := by
  obtain ⟨⟨_, clock⟩, others, rfl, rfl, rest⟩ := List.map_eq_cons_iff.mp targets
  obtain ⟨⟨_, clock'⟩, last, rfl, rfl, none⟩ := List.map_eq_cons_iff.mp rest
  obtain rfl := List.map_eq_nil_iff.mp none
  obtain ⟨report, z, _, run, success, ran, -⟩ := completeAll?_cons_eq_some.mp ran
  obtain ⟨report', _, _, run', success', ran, -⟩ := completeAll?_cons_eq_some.mp ran
  cases ran
  exact ⟨clock, clock', report, report', z, run, success, run', success'⟩

section

variable {version : String} {report : RunReport}
  (spares : migrator.registry.Spares migrator.ledger.collection)
  (written : migrator.ledger.Written (v.store x)) (success : report.failure = none)

include spares written success

private theorem recorded_of_up_to
    (ran : v.run (migrator.migrate (.up (.to version)) clock).run x = (.ok report, y)) :
    migrator.ledger.Written (v.store y) ∧ ∀ id, id ∈ migrator.ledger.recorded (v.store y) ↔
      id ∈ migrator.ledger.recorded (v.store x) ∨ id ∈ migrator.registry.ids ∧ id ≤ version := by
  obtain ⟨plan, planned, -, still, moved⟩ := moved_of_completed written spares ran success
  refine ⟨still, fun id => (moved id).trans ?_⟩
  rw [Plan.ofTarget] at planned
  have taken := Plan.mem_ids_up planned id
  show id ∈ migrator.ledger.recorded (v.store x) ∨ id ∈ plan.ids ↔ _
  rw [taken, UpTarget.forall_mem_last?_to]
  tauto

private theorem recorded_of_down_to
    (ran : v.run (migrator.migrate (.down (.to version)) clock).run x = (.ok report, y)) :
    migrator.ledger.Written (v.store y) ∧ ∀ id, id ∈ migrator.ledger.recorded (v.store y) ↔
      id ∈ migrator.ledger.recorded (v.store x) ∧ id ≤ version := by
  obtain ⟨plan, planned, -, still, moved⟩ := moved_of_completed written spares ran success
  refine ⟨still, fun id => (moved id).trans ?_⟩
  have taken := Plan.mem_ids_down_to planned id
  show id ∈ migrator.ledger.recorded (v.store x) ∧ id ∉ plan.ids ↔ _
  rw [taken, ← String.not_lt]
  tauto

end

/-- Both runs to an identifier leave what is registered or was recorded up to there. -/
theorem recorded_of_both {version : String} (written : migrator.ledger.Written (v.store x))
    (spares : migrator.registry.Spares migrator.ledger.collection)
    {runs : List (RunTarget × Clock)} {completed : List String}
    (targets : (runs.map (·.1)).Perm [.up (.to version), .down (.to version)])
    (ran : completeAll? v migrator runs x = some (completed, y)) (id : String) :
    id ∈ migrator.ledger.recorded (v.store y) ↔
      (id ∈ migrator.registry.ids ∨ id ∈ migrator.ledger.recorded (v.store x)) ∧ id ≤ version := by
  obtain upDown | downUp := List.perm_pair.mp targets
  · obtain ⟨_, _, _, _, z, up, success, down, success'⟩ := exists_of_completeAll?_pair upDown ran
    obtain ⟨still, risen⟩ := recorded_of_up_to spares written success up
    obtain ⟨-, left⟩ := recorded_of_down_to spares still success' down
    rw [left, risen]
    tauto
  · obtain ⟨_, _, _, _, z, down, success, up, success'⟩ := exists_of_completeAll?_pair downUp ran
    obtain ⟨still, left⟩ := recorded_of_down_to spares written success down
    obtain ⟨-, risen⟩ := recorded_of_up_to spares still success' up
    rw [risen, left]
    tauto

/-- When the run up and the run down to a registered identifier are completed, in either order, the
ledger holds what is registered up to there, and what it held below that is not registered. So both
orders leave the same identifiers. -/
theorem converges {version : String} (known : version ∈ migrator.registry.ids)
    (written : migrator.ledger.Written (v.store x))
    (spares : migrator.registry.Spares migrator.ledger.collection)
    {runs : List (RunTarget × Clock)} {completed : List String}
    (targets : (runs.map (·.1)).Perm [.up (.to version), .down (.to version)])
    (ran : completeAll? v migrator runs x = some (completed, y)) :
    (∀ id, id ∈ migrator.ledger.recorded (v.store y) ↔
      (id ∈ migrator.registry.ids ∧ id ≤ version) ∨
        (id ∉ migrator.registry.ids ∧ id ∈ migrator.ledger.recorded (v.store x) ∧ id < version)) ∧
    ∀ runs' completed' y', (runs'.map (·.1)).Perm [.up (.to version), .down (.to version)] →
      completeAll? v migrator runs' x = some (completed', y') →
        ∀ id, id ∈ migrator.ledger.recorded (v.store y') ↔
          id ∈ migrator.ledger.recorded (v.store y) := by
  refine ⟨fun id => ?_, fun runs' completed' y' targets' ran' id => ?_⟩
  · rw [recorded_of_both written spares targets ran]
    by_cases registered : id ∈ migrator.registry.ids
    · simp [registered]
    · -- The identifier itself is registered, so what is not is smaller.
      have different : id ≠ version := (ne_of_mem_of_not_mem known registered).symm
      have less : id < version ↔ id ≤ version :=
        ⟨Std.le_of_lt, fun within => Std.lt_of_le_of_ne within different⟩
      rw [less]
      tauto
  · rw [recorded_of_both written spares targets' ran', recorded_of_both written spares targets ran]

/-- In a ledger that records the second migration without the first, the run down takes away the
second, and the run up adds the first. -/
theorem converges_two :
    let clock : Clock := fun _ => ⟨⟨2025, 1, 3⟩, 8, 0, 0, 0⟩
    let entry : LedgerEntry := ⟨"20250102-orders", ⟨⟨2025, 1, 2⟩, 8, 0, 0, 0⟩, 1⟩
    let s := Store.after [.createCollection "orders", .insert "migrations" entry.document]
    let runs : List (RunTarget × Clock) :=
      [(.down (.to "20250101-users"), clock), (.up (.to "20250101-users"), clock)]
    two.ledger.recorded s = ["20250102-orders"] ∧
    ∃ t, completeAll? .plain two runs s = some (["20250102-orders", "20250101-users"], t) ∧
      two.ledger.recorded t = ["20250101-users"] ∧
      ∀ id, id ∈ two.ledger.recorded t ↔
        (id ∈ two.registry.ids ∧ id ≤ "20250101-users") ∨
          (id ∉ two.registry.ids ∧ id ∈ two.ledger.recorded s ∧ id < "20250101-users") := by
  intro clock entry s runs
  have before : two.ledger.recorded s = ["20250102-orders"] := by decide +kernel
  have completed : ∃ left, completeAll? .plain two runs s = some left ∧
      left.1 = ["20250102-orders", "20250101-users"] ∧
      two.ledger.recorded left.2 = ["20250101-users"] := by decide +kernel
  obtain ⟨⟨ids, t⟩, ran, rfl, after⟩ := completed
  have known : "20250101-users" ∈ two.registry.ids := by decide
  have written : two.ledger.Written s := ⟨[entry], by decide, by decide⟩
  have spares : two.registry.Spares "migrations" := fun m member direction =>
    Script.spares_of_avoids (avoids_two m member direction)
  have targets : (runs.map (·.1)).Perm
      [.up (.to "20250101-users"), .down (.to "20250101-users")] := .swap ..
  obtain ⟨recorded, -⟩ := converges known written spares targets ran
  exact ⟨before, t, ran, after, recorded⟩

end Migrator

end Stepwise
