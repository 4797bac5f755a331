import Stepwise.Proofs.Run.Course

/-!
# Reports are faithful

Whichever calls fail, a run that gives a report gives a faithful one: plan, report, ledger and the
bodies that were started say the same about what was done (`Migrator.report_faithful`).
-/

namespace Stepwise

variable {σ : Type}

/-- The plan of a run, its report, the ledger before and after it, and the stages to which it came,
side by side. -/
structure RunReport.Faithful (v : Service σ) (migrator : Migrator) (target : RunTarget)
    (clock : Clock) (x : σ) (report : RunReport) (plan : Plan) (pass : Pass)
    (stages : List (Stage σ)) : Prop where
  planned : Plan.ofTarget migrator.registry
    (IdSet.ofList (migrator.ledger.recorded (v.store x))) target = .ok plan
  direction : pass.direction = target.direction
  /-- What is completed is the beginning of the plan, -/
  completed_prefix : report.completed <+: plan.ids
  /-- and all of it if nothing failed. -/
  success_iff : report.failure = none ↔ report.completed = plan.ids
  /-- What is completed went into the ledger or out of it, and nothing else did. -/
  recorded_iff : ∀ id,
    id ∈ migrator.ledger.recorded (v.store (v.run (migrator.migrate target clock).run x).2) ↔
      target.direction.Holds (migrator.ledger.recorded (v.store x)) report.completed id
  /-- After reading the ledger, the run makes the calls of its stages and no others. -/
  log_eq : v.log (migrator.migrate target clock).run x =
    (x, .find migrator.ledger.collection []) ::
      stages.flatMap (·.calls v migrator.ledger pass)
  /-- The bodies that are started are the first of the plan, -/
  started : stages.map (·.migration) <+: plan.steps
  /-- those completed and the one at which the run stopped. -/
  started_ids : stages.map (·.migration.id) = report.completed ++ report.failedId?.toList
  /-- A body is started where the ledger was written for the one before it, with success. -/
  chain : stages.IsChain fun a b => (a.ran v pass).1 = .ok () ∧
    (a.wrote v migrator.ledger pass).1 = .ok () ∧ b.start = (a.wrote v migrator.ledger pass).2
  /-- A failure is that of the next migration of the plan: of its body, or of the write to the
  ledger after its body. -/
  failed : ∀ failure, report.failure = some failure →
    report.completed ++ [failure.id] <+: plan.ids ∧ failure.direction = target.direction ∧
    ∃ stage, stages.getLast? = some stage ∧
      ((∃ cause, (stage.ran v pass).1 = .error cause ∧
          failure.error = .step failure.id failure.direction cause) ∨
        (stage.ran v pass).1 = .ok () ∧
          (stage.wrote v migrator.ledger pass).1 = .error failure.error ∧
          (failure.error = .duplicateApply failure.id ∨ ∃ cause, failure.error = .ledger cause))

/-- A report is faithful under every schedule of faults. -/
theorem Migrator.report_faithful (v : Service σ) (migrator : Migrator) (target : RunTarget)
    (clock : Clock) {x : σ} {report : RunReport}
    (written : migrator.ledger.Written (v.store x))
    (spares : migrator.registry.Spares migrator.ledger.collection)
    (reported : (v.run (migrator.migrate target clock).run x).1 = .ok report) :
    ∃ plan pass stages, report.Faithful v migrator target clock x plan pass stages := by
  obtain ⟨error, failed, -⟩ | ⟨_, entries, plan, stages, ok, -, planned, -, -, course, log⟩ :=
    migrator.run_migrate v target clock x
  · rw [reported] at failed
    contradiction
  rw [reported] at ok
  cases ok
  have bodies : ∀ m ∈ plan.steps, (m.body (Pass.ofTarget entries target).direction).run.Spares
      migrator.ledger.collection := by
    intro m member
    exact spares m (Plan.mem_migrations planned member) _
  obtain ⟨same, -⟩ := Ledger.run_entries v migrator.ledger x
  have found : migrator.ledger.Written (v.store (v.run migrator.ledger.entries.run x).2) := by
    rwa [same]
  have direction := Pass.direction_ofTarget entries target
  obtain ⟨-, recorded⟩ := course.recorded_iff bodies found
  rw [same, direction] at recorded
  have ids : stages.map (·.migration.id) = report.completed ++ report.failedId?.toList := by
    rw [course.ids_stages, RunReport.failedId?, Option.toList_map]
  have whole : report.completed ++ report.failedId?.toList <+: plan.ids := by
    have started : (stages.map (·.migration)).map (·.id) <+: plan.ids := course.started.map _
    rwa [List.map_map, Function.comp_def, ids] at started
  have next {failure : RunFailure} (failed : report.failure = some failure) :
      report.completed ++ [failure.id] <+: plan.ids := by
    rwa [RunReport.failedId?, failed] at whole
  have initial : report.completed <+: plan.ids := (List.prefix_append _ _).trans whole
  refine ⟨plan, Pass.ofTarget entries target, stages, planned, direction, initial,
    ⟨fun success => ?_, fun all => ?_⟩, recorded, log, course.started, ids, ?_,
    fun failure failed => ⟨next failed, ?_⟩⟩
  · exact course.completed_all success
  · -- After a failure, the plan has a migration that is not completed.
    cases failed : report.failure with
    | none => rfl
    | some failure =>
      have longer := (next failed).length_le
      rw [all, List.length_append, List.length_singleton] at longer
      omega
  · refine course.chain.imp fun a b ⟨ok, start⟩ => ?_
    obtain ⟨ran, wrote⟩ := Stage.ended_of_ok v _ _ ok
    rw [wrote] at ok start
    exact ⟨ran, ok, start⟩
  · obtain ⟨stage, last, id, way, ended⟩ := course.last_stage failed
    have member : stage ∈ stages := List.mem_of_getLast? last
    have body := bodies stage.migration (course.mem_migrations member)
    have written := course.written_start bodies found stage member
    obtain ⟨ok, -⟩ | ⟨error, stopped, reason, -⟩ :=
      stage.ended_cases v migrator.ledger _ body written
    · rw [ended] at ok
      contradiction
    · rw [ended] at stopped
      cases stopped
      rw [id, ← way] at reason
      exact ⟨way.trans direction, stage, last, reason⟩

/-- A host that can record one migration only. -/
def Host.full : Host where
  faults := [⟨.insert, some "migrations", .backend, "disk full", 1, none⟩]

theorem Migrator.report_faithful_full :
    ∃ (report : RunReport) (plan : Plan) (pass : Pass) (stages : List (Stage Host)),
      report.completed = ["20250101-users"] ∧
      report.failure =
        some ⟨"20250102-orders", .up, .ledger (.backend "disk full")⟩ ∧
      report.Faithful .host two (.up .all) (fun _ => ⟨⟨2025, 1, 3⟩, 8, 0, 0, 0⟩) .full plan pass
        stages := by
  have reported : (Service.host.run (two.migrate (.up .all)
      (fun _ => ⟨⟨2025, 1, 3⟩, 8, 0, 0, 0⟩)).run .full).1 = .ok ⟨.up, some 1, ["20250101-users"],
        some ⟨"20250102-orders", .up, .ledger (.backend "disk full")⟩⟩ := by decide +kernel
  have spares : two.registry.Spares "migrations" := by
    intro m member direction
    exact Script.spares_of_avoids (avoids_two m member direction)
  obtain ⟨plan, pass, stages, faithful⟩ :=
    Migrator.report_faithful .host two (.up .all) _ ⟨[], rfl, List.nodup_nil⟩ spares reported
  exact ⟨_, plan, pass, stages, rfl, rfl, faithful⟩

end Stepwise
