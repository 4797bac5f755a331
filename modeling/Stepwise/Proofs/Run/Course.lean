import Stepwise.Proofs.Run.Target

/-!
# The course of a run

A run is a list of stages: a body is started, and if it succeeds the ledger is written. `Course`
relates the migrations of a plan to the stages that a run of them comes to, its result and the state
it leaves. By `course_steps` every run has a course, and makes no calls but those of its stages;
what is said of runs is said of courses, by induction.
-/

namespace Stepwise

variable {σ : Type}

/-- A step of a run whose body is started. -/
structure Stage (σ : Type) where
  migration : Migration
  now : Instant
  /-- The state in which the body starts. -/
  start : σ

namespace Stage

variable (v : Service σ) (ledger : Ledger) (pass : Pass) (stage : Stage σ)

/-- The result of the body, and the state that it leaves. -/
def ran : Except StoreError Unit × σ :=
  v.run (stage.migration.body pass.direction).run stage.start

/-- The result of writing the ledger after the body, and the state that it leaves. -/
def wrote : Except MigrationError Unit × σ :=
  v.run (pass.write ledger stage.now stage.migration).run (stage.ran v pass).2

/-- The result of the stage, and the state that it leaves: the ledger is written only after a body
that succeeds. -/
def ended : Except MigrationError Unit × σ :=
  match stage.ran v pass with
  | (.ok (), _) => stage.wrote v ledger pass
  | (.error cause, y) => (.error (.step stage.migration.id pass.direction cause), y)

def calls : List (σ × Call) :=
  v.log (stage.migration.body pass.direction).run stage.start ++
    match stage.ran v pass with
    | (.ok (), y) => v.log (pass.write ledger stage.now stage.migration).run y
    | (.error _, _) => []

theorem run_step (now : Instant) (m : Migration) (x : σ) :
    v.run (Migrator.step ledger pass now m).run x = (Stage.mk m now x).ended v ledger pass := by
  rw [Migrator.step_eq, v.run_attempt_bind, v.run_adapt, ended, wrote, ran]
  obtain ⟨result, y⟩ := v.run (m.body pass.direction).run x
  cases result <;> rfl

theorem log_step (now : Instant) (m : Migration) (x : σ) :
    v.log (Migrator.step ledger pass now m).run x = (Stage.mk m now x).calls v ledger pass := by
  rw [Migrator.step_eq, v.log_attempt_bind, v.run_adapt, v.log_adapt, calls, ran]
  obtain ⟨result, y⟩ := v.run (m.body pass.direction).run x
  cases result <;> rfl

/-- A write that succeeds moves the identifier of its migration; one that fails changes nothing. -/
theorem run_write {x : σ} (written : ledger.Written (v.store x)) (now : Instant) (m : Migration) :
    ((v.run (pass.write ledger now m).run x).1 = .ok () ∧
      ledger.Written (v.store (v.run (pass.write ledger now m).run x).2) ∧
      ∀ id, id ∈ ledger.recorded (v.store (v.run (pass.write ledger now m).run x).2) ↔
        pass.direction.Holds (ledger.recorded (v.store x)) [m.id] id) ∨
    ∃ error, (v.run (pass.write ledger now m).run x).1 = .error error ∧
      Ledger.Refusal m.id error ∧
      ledger.documents (v.store (v.run (pass.write ledger now m).run x).2) =
        ledger.documents (v.store x) := by
  cases pass with
  | apply batch =>
    obtain ⟨ok, still, recorded⟩ | failed := Ledger.run_record v written ⟨m.id, now, batch⟩
    · refine .inl ⟨ok, still, fun id => ?_⟩
      rw [Pass.write, recorded, List.mem_append]
      rfl
    · exact .inr failed
  | revert =>
    obtain ⟨ok, still, recorded⟩ | failed := Ledger.run_erase v written m.id
    · refine .inl ⟨ok, still, fun id => (recorded id).trans ?_⟩
      rw [ne_eq, ← List.mem_singleton]
      rfl
    · exact .inr failed

/-- A stage that succeeds ran its body and wrote the ledger. -/
theorem ended_of_ok {stage : Stage σ} (ok : (stage.ended v ledger pass).1 = .ok ()) :
    (stage.ran v pass).1 = .ok () ∧ stage.ended v ledger pass = stage.wrote v ledger pass := by
  unfold ended at ok ⊢
  split
  · next ran => exact ⟨congrArg Prod.fst ran, rfl⟩
  · next ran =>
    rw [ran] at ok
    contradiction

/-- A stage of a migration that spares the ledger moves its identifier if it succeeds. If it fails,
the ledger is as it was, and it was the body that failed or the write to the ledger. -/
theorem ended_cases (stage : Stage σ)
    (spares : (stage.migration.body pass.direction).run.Spares ledger.collection)
    (written : ledger.Written (v.store stage.start)) :
    ((stage.ended v ledger pass).1 = .ok () ∧
      ledger.Written (v.store (stage.ended v ledger pass).2) ∧
      ∀ id, id ∈ ledger.recorded (v.store (stage.ended v ledger pass).2) ↔
        pass.direction.Holds (ledger.recorded (v.store stage.start)) [stage.migration.id] id) ∨
    ∃ error, (stage.ended v ledger pass).1 = .error error ∧
      ((∃ cause, (stage.ran v pass).1 = .error cause ∧
          error = .step stage.migration.id pass.direction cause) ∨
        (stage.ran v pass).1 = .ok () ∧ (stage.wrote v ledger pass).1 = .error error ∧
          Ledger.Refusal stage.migration.id error) ∧
      ledger.documents (v.store (stage.ended v ledger pass).2) =
        ledger.documents (v.store stage.start) := by
  have same : ledger.documents (v.store (stage.ran v pass).2) =
      ledger.documents (v.store stage.start) := Ledger.documents_run v spares stage.start
  cases ran : stage.ran v pass with
  | mk result y =>
    rw [ran] at same
    cases result with
    | error cause =>
      have ended : stage.ended v ledger pass =
          (.error (.step stage.migration.id pass.direction cause), y) := by
        rw [Stage.ended, ran]
      rw [ended]
      exact .inr ⟨_, rfl, .inl ⟨cause, rfl, rfl⟩, same⟩
    | ok _ =>
      have wrote : stage.wrote v ledger pass =
          v.run (pass.write ledger stage.now stage.migration).run y := by
        rw [Stage.wrote, ran]
      have ended : stage.ended v ledger pass = stage.wrote v ledger pass := by
        rw [Stage.ended, ran]
      rw [ended, wrote, ← Ledger.recorded_congr same]
      obtain done | ⟨error, failed, refusal, left⟩ :=
        run_write v ledger pass (written.congr same) stage.now stage.migration
      · exact .inl done
      · exact .inr ⟨error, failed, .inr ⟨rfl, failed, refusal⟩, left.trans same⟩

variable {stage}

/-- A stage that succeeds moves the identifier of its migration. -/
theorem moved_of_ok
    (spares : (stage.migration.body pass.direction).run.Spares ledger.collection)
    (written : ledger.Written (v.store stage.start)) (ok : (stage.ended v ledger pass).1 = .ok ()) :
    ledger.Written (v.store (stage.ended v ledger pass).2) ∧
      ∀ id, id ∈ ledger.recorded (v.store (stage.ended v ledger pass).2) ↔
        pass.direction.Holds (ledger.recorded (v.store stage.start)) [stage.migration.id] id := by
  obtain ⟨-, moved⟩ | ⟨error, failed, -⟩ := stage.ended_cases v ledger pass spares written
  · exact moved
  · rw [ok] at failed
    contradiction

/-- A stage that fails leaves the ledger as it was. -/
theorem documents_of_error {error : MigrationError}
    (spares : (stage.migration.body pass.direction).run.Spares ledger.collection)
    (written : ledger.Written (v.store stage.start))
    (failed : (stage.ended v ledger pass).1 = .error error) :
    ledger.documents (v.store (stage.ended v ledger pass).2) =
      ledger.documents (v.store stage.start) := by
  obtain ⟨ok, -⟩ | ⟨_, -, -, same⟩ := stage.ended_cases v ledger pass spares written
  · rw [failed] at ok
    contradiction
  · exact same

end Stage

/-- The stages to which a run through migrations comes, the identifiers of those that it completes,
its failure, and the state that it leaves. -/
inductive Course (v : Service σ) (ledger : Ledger) (pass : Pass) :
    Clock → List Migration → σ → List (Stage σ) → List String → Option RunFailure → σ → Prop
  | finished (clock : Clock) (x : σ) : Course v ledger pass clock [] x [] [] none x
  | recorded {clock : Clock} {m : Migration} {rest : List Migration} {x y : σ}
      {stages : List (Stage σ)} {completed : List String} {failure : Option RunFailure} :
      ((Stage.mk m (clock 0) x).ended v ledger pass).1 = .ok () →
      Course v ledger pass (fun n => clock (n + 1)) rest
        ((Stage.mk m (clock 0) x).ended v ledger pass).2 stages completed failure y →
      Course v ledger pass clock (m :: rest) x (⟨m, clock 0, x⟩ :: stages) (m.id :: completed)
        failure y
  | stopped {clock : Clock} {m : Migration} {rest : List Migration} {x : σ}
      {error : MigrationError} :
      ((Stage.mk m (clock 0) x).ended v ledger pass).1 = .error error →
      Course v ledger pass clock (m :: rest) x [⟨m, clock 0, x⟩] []
        (some ⟨m.id, pass.direction, error⟩) ((Stage.mk m (clock 0) x).ended v ledger pass).2

/-- Every run has a course, and makes the calls of its stages and no others. -/
theorem course_steps (v : Service σ) (ledger : Ledger) (pass : Pass) (clock : Clock)
    (migrations : List Migration) (x : σ) :
    ∃ stages, Course v ledger pass clock migrations x stages
        (v.run (Migrator.steps ledger pass clock migrations) x).1.1
        (v.run (Migrator.steps ledger pass clock migrations) x).1.2
        (v.run (Migrator.steps ledger pass clock migrations) x).2 ∧
      v.log (Migrator.steps ledger pass clock migrations) x =
        stages.flatMap (·.calls v ledger pass) := by
  induction migrations generalizing clock x with
  | nil => exact ⟨[], .finished clock x, rfl⟩
  | cons m rest ih =>
    rw [Migrator.steps, v.run_bind, v.log_bind, Stage.run_step, Stage.log_step]
    cases ended : ((Stage.mk m (clock 0) x).ended v ledger pass).1 with
    | error error => exact ⟨[⟨m, clock 0, x⟩], .stopped ended, rfl⟩
    | ok _ =>
      obtain ⟨stages, course, log⟩ := ih (fun n => clock (n + 1))
        ((Stage.mk m (clock 0) x).ended v ledger pass).2
      simp only [v.run_bind, v.log_bind, log]
      exact ⟨⟨m, clock 0, x⟩ :: stages, .recorded ended course,
        congrArg (_ ++ ·) (List.append_nil _)⟩

namespace Course

variable {v : Service σ} {ledger : Ledger} {pass : Pass} {clock : Clock}
  {migrations : List Migration} {x y : σ} {stages : List (Stage σ)} {completed : List String}
  {failure : Option RunFailure}

/-- The bodies that are started are those of the first migrations, in order. -/
theorem started (course : Course v ledger pass clock migrations x stages completed failure y) :
    stages.map (·.migration) <+: migrations := by
  induction course with
  | finished clock x => exact List.nil_prefix
  | recorded _ _ ih => exact (List.prefix_cons_inj _).mpr ih
  | stopped _ => exact (List.prefix_cons_inj _).mpr List.nil_prefix

/-- A run that does not fail starts them all. -/
theorem started_all (course : Course v ledger pass clock migrations x stages completed failure y)
    (success : failure = none) : stages.map (·.migration) = migrations := by
  induction course with
  | finished clock x => rfl
  | recorded _ _ ih => exact congrArg _ (ih success)
  | stopped _ => contradiction

/-- What is completed is what was started, but for the migration at which the run stopped. -/
theorem ids_stages (course : Course v ledger pass clock migrations x stages completed failure y) :
    stages.map (·.migration.id) = completed ++ failure.toList.map (·.id) := by
  induction course with
  | finished clock x => rfl
  | recorded _ _ ih => exact congrArg _ ih
  | stopped _ => rfl

/-- A run that does not fail completes them all. -/
theorem completed_all (course : Course v ledger pass clock migrations x stages completed failure y)
    (success : failure = none) : completed = migrations.map (·.id) := by
  have ids := course.ids_stages
  rw [success, Option.toList_none, List.map_nil, List.append_nil] at ids
  rw [← ids, ← course.started_all success, List.map_map]
  rfl

/-- The stage at which a run stopped is the last one, and failed for the reason that is reported. -/
theorem last_stage (course : Course v ledger pass clock migrations x stages completed failure y)
    {f : RunFailure} (failed : failure = some f) :
    ∃ stage, stages.getLast? = some stage ∧ stage.migration.id = f.id ∧
      f.direction = pass.direction ∧ (stage.ended v ledger pass).1 = .error f.error := by
  induction course with
  | finished clock x => contradiction
  | recorded _ _ ih =>
    obtain ⟨stage, last, facts⟩ := ih failed
    refine ⟨stage, ?_, facts⟩
    rw [List.getLast?_cons, last, Option.getD_some]
  | stopped ended =>
    cases failed
    exact ⟨_, rfl, rfl, rfl, ended⟩

/-- A stage starts where the one before it ended, which succeeded. -/
theorem chain (course : Course v ledger pass clock migrations x stages completed failure y) :
    stages.IsChain fun a b =>
      (a.ended v ledger pass).1 = .ok () ∧ b.start = (a.ended v ledger pass).2 := by
  induction course with
  | finished clock x => exact .nil
  | recorded ended course ih =>
    cases course with
    | finished clock x => exact .singleton _
    | recorded _ _ => exact .cons_cons ⟨ended, rfl⟩ ih
    | stopped _ => exact .cons_cons ⟨ended, rfl⟩ ih
  | stopped _ => exact .singleton _

/-- The stages belong to migrations of the plan. -/
theorem mem_migrations (course : Course v ledger pass clock migrations x stages completed failure y)
    {stage : Stage σ} (member : stage ∈ stages) : stage.migration ∈ migrations :=
  course.started.subset (List.mem_map_of_mem member)

/-- A run moves the identifiers that it completes, and no others. -/
theorem recorded_iff (course : Course v ledger pass clock migrations x stages completed failure y)
    (spares : ∀ m ∈ migrations, (m.body pass.direction).run.Spares ledger.collection)
    (written : ledger.Written (v.store x)) :
    ledger.Written (v.store y) ∧ ∀ id, id ∈ ledger.recorded (v.store y) ↔
      pass.direction.Holds (ledger.recorded (v.store x)) completed id := by
  induction course with
  | finished clock x => exact ⟨written, fun id => (Direction.holds_nil ..).symm⟩
  | recorded ended _ ih =>
    obtain ⟨body, others⟩ := List.forall_mem_cons.mp spares
    obtain ⟨still, moved⟩ := Stage.moved_of_ok v ledger pass body written ended
    obtain ⟨last, recorded⟩ := ih others still
    refine ⟨last, fun id => ?_⟩
    rw [recorded, Direction.holds_cons moved]
  | stopped ended =>
    obtain ⟨body, -⟩ := List.forall_mem_cons.mp spares
    have same := Stage.documents_of_error v ledger pass body written ended
    refine ⟨written.congr same, fun id => ?_⟩
    rw [Ledger.recorded_congr same]
    exact (Direction.holds_nil ..).symm

/-- Every stage finds a ledger that was written by runs only. -/
theorem written_start
    (course : Course v ledger pass clock migrations x stages completed failure y)
    (spares : ∀ m ∈ migrations, (m.body pass.direction).run.Spares ledger.collection)
    (written : ledger.Written (v.store x)) :
    ∀ stage ∈ stages, ledger.Written (v.store stage.start) := by
  induction course with
  | finished clock x =>
    intro stage member
    contradiction
  | recorded ended _ ih =>
    obtain ⟨body, others⟩ := List.forall_mem_cons.mp spares
    obtain ⟨still, -⟩ := Stage.moved_of_ok v ledger pass body written ended
    exact List.forall_mem_cons.mpr ⟨written, ih others still⟩
  | stopped _ => exact List.forall_mem_singleton.mpr written

end Course

namespace Migrator

variable (v : Service σ) (migrator : Migrator) (target : RunTarget) (clock : Clock) (x : σ)

theorem run_execute (pass : Pass) (plan : Plan) :
    v.run (migrator.execute pass clock plan) x =
      let ((completed, failure), y) := v.run (steps migrator.ledger pass clock plan.steps) x
      ({ direction := pass.direction, batch := pass.batch?, completed, failure }, y) := by
  rw [execute, v.run_bind]
  rfl

theorem log_execute (pass : Pass) (plan : Plan) :
    v.log (migrator.execute pass clock plan) x =
      v.log (steps migrator.ledger pass clock plan.steps) x := by
  rw [execute, v.log_bind]
  exact List.append_nil _

/-- Going through a plan always gives a report, and that of a course. -/
theorem run_goThrough (entries : List LedgerEntry) (plan : Plan) :
    ∃ (report : RunReport) (stages : List (Stage σ)),
      (v.run (migrator.goThrough target clock entries plan).run x).1 = .ok report ∧
      report.direction = target.direction ∧
      report.batch = (if plan.steps.isEmpty then none else (Pass.ofTarget entries target).batch?) ∧
      Course v migrator.ledger (Pass.ofTarget entries target) clock plan.steps x stages
        report.completed report.failure
        (v.run (migrator.goThrough target clock entries plan).run x).2 ∧
      v.log (migrator.goThrough target clock entries plan).run x =
        stages.flatMap (·.calls v migrator.ledger (Pass.ofTarget entries target)) := by
  rw [goThrough]
  split
  · next empty =>
    rw [List.isEmpty_iff.mp empty]
    exact ⟨_, [], rfl, rfl, rfl, .finished clock x, rfl⟩
  · rw [v.run_lift, v.log_lift, run_execute, log_execute]
    obtain ⟨stages, course, log⟩ := course_steps v migrator.ledger (Pass.ofTarget entries target)
      clock plan.steps x
    exact ⟨_, stages, rfl, Pass.direction_ofTarget entries target, rfl, course, log⟩

/-- A run either fails before it has a plan, and changes nothing, or has a course through the plan
for what the ledger records. -/
theorem run_migrate :
    (∃ error, (v.run (migrator.migrate target clock).run x).1 = .error error ∧
      v.store (v.run (migrator.migrate target clock).run x).2 = v.store x) ∨
    ∃ (report : RunReport) (entries : List LedgerEntry) (plan : Plan) (stages : List (Stage σ)),
      (v.run (migrator.migrate target clock).run x).1 = .ok report ∧
      (v.run migrator.ledger.entries.run x).1 = .ok entries ∧
      Plan.ofTarget migrator.registry (IdSet.ofList (migrator.ledger.recorded (v.store x))) target =
        .ok plan ∧
      report.direction = target.direction ∧
      report.batch = (if plan.steps.isEmpty then none else (Pass.ofTarget entries target).batch?) ∧
      Course v migrator.ledger (Pass.ofTarget entries target) clock plan.steps
        (v.run migrator.ledger.entries.run x).2 stages report.completed report.failure
        (v.run (migrator.migrate target clock).run x).2 ∧
      v.log (migrator.migrate target clock).run x =
        (x, .find migrator.ledger.collection []) ::
          stages.flatMap (·.calls v migrator.ledger (Pass.ofTarget entries target)) := by
  rw [migrate_eq, v.run_attempt_bind, v.log_attempt_bind, Ledger.log_entries]
  obtain ⟨same, ids⟩ := Ledger.run_entries v migrator.ledger x
  generalize v.run migrator.ledger.entries.run x = read at same ids
  obtain ⟨result, y⟩ := read
  cases result with
  | error error => exact .inl ⟨error, rfl, same⟩
  | ok entries =>
    rw [← ids entries rfl]
    dsimp only
    cases planned : Plan.ofTarget migrator.registry (LedgerEntry.ids entries) target with
    | error error => exact .inl ⟨error, rfl, same⟩
    | ok plan =>
      obtain ⟨report, stages, ok, direction, batch, course, log⟩ :=
        run_goThrough v migrator target clock y entries plan
      exact .inr ⟨report, entries, plan, stages, ok, rfl, rfl, direction, batch, course,
        congrArg ((x, _) :: ·) log⟩

/-- A run that gives a report completes the beginning of its plan, and moves that in the ledger and
nothing else. Only a run up has a batch. -/
theorem holds_of_ok {report : RunReport} (written : migrator.ledger.Written (v.store x))
    (spares : migrator.registry.Spares migrator.ledger.collection)
    (reported : (v.run (migrator.migrate target clock).run x).1 = .ok report) :
    ∃ plan,
      Plan.ofTarget migrator.registry (IdSet.ofList (migrator.ledger.recorded (v.store x))) target =
        .ok plan ∧
      report.completed <+: plan.ids ∧
      (report.failure = none → report.completed = plan.ids) ∧
      (∀ batch, report.batch = some batch → target.direction = .up) ∧
      migrator.ledger.Written (v.store (v.run (migrator.migrate target clock).run x).2) ∧
      ∀ id, id ∈ migrator.ledger.recorded
          (v.store (v.run (migrator.migrate target clock).run x).2) ↔
        target.direction.Holds (migrator.ledger.recorded (v.store x)) report.completed id := by
  obtain ⟨error, failed, -⟩ | ⟨_, entries, plan, stages, ok, -, planned, -, batched, course, -⟩ :=
    migrator.run_migrate v target clock x
  · rw [reported] at failed
    contradiction
  rw [reported] at ok
  cases ok
  have upward : ∀ batch, report.batch = some batch → target.direction = .up := by
    intro batch numbered
    rw [batched] at numbered
    split at numbered
    · contradiction
    · cases target with
      | up target => rfl
      | down target => contradiction
  obtain ⟨same, -⟩ := Ledger.run_entries v migrator.ledger x
  have bodies : ∀ m ∈ plan.steps, (m.body (Pass.ofTarget entries target).direction).run.Spares
      migrator.ledger.collection :=
    fun m member => spares m (Plan.mem_migrations planned member) _
  obtain ⟨still, moved⟩ := course.recorded_iff bodies (same ▸ written)
  rw [same, Pass.direction_ofTarget] at moved
  have started : (stages.map (·.migration)).map (·.id) <+: plan.ids := course.started.map _
  rw [List.map_map, Function.comp_def, course.ids_stages] at started
  exact ⟨plan, planned, (List.prefix_append _ _).trans started, course.completed_all, upward, still,
    moved⟩

end Migrator

end Stepwise
