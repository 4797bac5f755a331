import Stepwise.Proofs.Ledger.Key
import Stepwise.Proofs.Run.Trace

/-!
# Plans that are shown without a run

A plan can be shown without going through it. Showing it reads the ledger as a run does, but on a
path of its own. Both are refused in the same stores and for the same reason, and what is shown is
what a run then goes through, as far as it comes (`Migrator.preview_tells`).
-/

namespace Stepwise

/-- Show the plan of a run, without the run. -/
def Migrator.preview (migrator : Migrator) : RunTarget → Attempt MigrationError Plan
  | .up target => migrator.planUp target
  | .down target => migrator.planDown target

namespace Migrator

theorem preview_eq (migrator : Migrator) (target : RunTarget) :
    migrator.preview target = (do
      let entries ← migrator.ledger.entries
      Attempt.ofResult (Plan.ofTarget migrator.registry (LedgerEntry.ids entries) target)) := by
  cases target <;> simp only [preview, planUp, planDown, Ledger.ids, bind_assoc, pure_bind] <;> rfl

/-- Showing a plan reads the ledger and plans with what is recorded there. -/
theorem run_preview (migrator : Migrator) (target : RunTarget) (s : Store) :
    ((migrator.preview target).run.run s).1 = (do
      let entries ← (LedgerEntry.ofDocuments (migrator.ledger.documents s)).mapError .ledger
      Plan.ofTarget migrator.registry (LedgerEntry.ids entries) target) := by
  rw [preview_eq, ← Service.run_plain, Service.run_attempt_bind, Service.run_plain,
    Ledger.run_entries_plain]
  cases LedgerEntry.ofDocuments (migrator.ledger.documents s) <;> rfl

/-- A plan is made by what the ledger records, if it can be read. -/
theorem run_preview_eq_ok {migrator : Migrator} {target : RunTarget} {s : Store} {plan : Plan} :
    ((migrator.preview target).run.run s).1 = .ok plan ↔ migrator.ledger.Readable s ∧
      Plan.ofTarget migrator.registry (IdSet.ofList (migrator.ledger.recorded s)) target =
        .ok plan := by
  rw [run_preview]
  cases read : LedgerEntry.ofDocuments (migrator.ledger.documents s) with
  | error cause =>
    refine iff_of_false nofun fun ⟨readable, _⟩ => ?_
    obtain ⟨entries, readable⟩ := LedgerEntry.exists_ofDocuments.mpr readable
    rw [read] at readable
    contradiction
  | ok entries =>
    have readable : migrator.ledger.Readable s := LedgerEntry.exists_ofDocuments.mp ⟨entries, read⟩
    rw [Ledger.recorded, ← LedgerEntry.ids_of_ofDocuments read]
    exact (and_iff_right readable).symm

variable {σ : Type} (v : Service σ) (migrator : Migrator) (target : RunTarget) (clock : Clock)
  (x : σ)

/-- A plan and a run are refused together, and then the run has only read the ledger; or the run has
a course through the plan. -/
theorem run_preview_migrate :
    v.store (v.run (migrator.preview target).run x).2 = v.store x ∧
    ((∃ error, (v.run (migrator.preview target).run x).1 = .error error ∧
      (v.run (migrator.migrate target clock).run x).1 = .error error ∧
      v.store (v.run (migrator.migrate target clock).run x).2 = v.store x ∧
      v.log (migrator.migrate target clock).run x = [(x, .find migrator.ledger.collection [])] ∧
      migrator.moments v target clock x =
        [⟨x, .pause⟩, ⟨x, .calls (.find migrator.ledger.collection [])⟩]) ∨
    ∃ plan report pass stages y z, (v.run (migrator.preview target).run x).1 = .ok plan ∧
      (v.run (migrator.migrate target clock).run x).1 = .ok report ∧
      Course v migrator.ledger pass clock plan.steps y stages report.completed report.failure
        z) := by
  rw [preview_eq, migrate_eq, v.run_attempt_bind, v.run_attempt_bind, v.log_attempt_bind,
    Ledger.log_entries, moments]
  obtain ⟨same, -⟩ := Ledger.run_entries v migrator.ledger x
  generalize v.run migrator.ledger.entries.run x = read at same
  obtain ⟨result, y⟩ := read
  cases result with
  | error error => exact ⟨same, .inl ⟨error, rfl, rfl, same, rfl, rfl⟩⟩
  | ok entries =>
    dsimp only
    cases Plan.ofTarget migrator.registry (LedgerEntry.ids entries) target with
    | error error => exact ⟨same, .inl ⟨error, rfl, rfl, same, rfl, rfl⟩⟩
    | ok plan =>
      obtain ⟨report, stages, ok, -, -, course, -⟩ :=
        run_goThrough v migrator target clock y entries plan
      exact ⟨same, .inr ⟨plan, report, _, stages, y, _, rfl, ok, course⟩⟩

/-- Showing a plan changes nothing. It fails exactly where a run fails without a report, for the
same reason, and such a run has made no call that writes and has started no body. Where a plan is
shown, a run gives a report: what it completed, and then the migration at which it stopped, are the
first of the plan, and all of it if it did not stop. -/
theorem preview_tells :
    let shown := v.run (migrator.preview target).run x
    let ran := v.run (migrator.migrate target clock).run x
    v.store shown.2 = v.store x ∧
    (∀ error, shown.1 = .error error ↔ ran.1 = .error error) ∧
    (∀ error, ran.1 = .error error →
      v.store ran.2 = v.store x ∧
      (∀ made ∈ v.log (migrator.migrate target clock).run x, made.2.isWrite = false) ∧
      ∀ moment ∈ migrator.moments v target clock x, ∀ direction id,
        moment.event ≠ .starts direction id) ∧
    ∀ plan, shown.1 = .ok plan → ∃ report, ran.1 = .ok report ∧
      report.completed ++ report.failedId?.toList <+: plan.ids ∧
      (report.isSuccess = true → report.completed = plan.ids) := by
  intro shown ran
  obtain ⟨same, ⟨reason, refused, failed, kept, log, moments⟩ |
    ⟨plan, report, pass, stages, y, z, planned, reported, course⟩⟩ :=
      migrator.run_preview_migrate v target clock x
  · have refused : shown.1 = .error reason := refused
    have failed : ran.1 = .error reason := failed
    refine ⟨same, fun error => ?_, fun error _ => ⟨kept, ?_, ?_⟩, fun plan planned => ?_⟩
    · rw [refused, failed, Except.error.injEq, Except.error.injEq]
    · rw [log, List.forall_mem_singleton]
      rfl
    · rw [moments]
      intro moment member direction id starts
      obtain rfl | rfl : moment = _ ∨ moment = _ := by simpa using member
      · contradiction
      · contradiction
    · rw [refused] at planned
      contradiction
  · have planned : shown.1 = .ok plan := planned
    have reported : ran.1 = .ok report := reported
    refine ⟨same, fun error => ?_, fun error failed => ?_,
      fun other shows => ⟨report, reported, ?_, fun success => ?_⟩⟩
    · rw [planned, reported]
      exact iff_of_false nofun nofun
    · rw [reported] at failed
      contradiction
    · rw [planned] at shows
      cases shows
      have started : (stages.map (·.migration)).map (·.id) <+: plan.ids := course.started.map _
      rwa [List.map_map, Function.comp_def, course.ids_stages, ← Option.toList_map] at started
    · rw [planned] at shows
      cases shows
      exact course.completed_all (Option.isNone_iff_eq_none.mp success)

/-- A plan is shown where a collection is in the way of its second migration, and the run of it
stops there. Where a document of the ledger has no instant, there is neither a plan nor a run. -/
theorem preview_tells_blocked :
    let clock : Clock := fun _ => ⟨⟨2025, 1, 3⟩, 8, 0, 0, 0⟩
    let blocked := Store.after [.createCollection "orders"]
    let corrupt := Store.after [.insert "migrations" [("_id", .str "20250101-users")]]
    let reason := MigrationError.ledger
      (.invalidDocument "ledger document \"20250101-users\" has no valid 'applied_at'")
    let blockedRun := (two.migrate (.up .all) clock).run.run blocked
    let corruptRun := (two.migrate (.up .all) clock).run.run corrupt
    (∃ report, blockedRun.1 = .ok report ∧ report.failedId? = some "20250102-orders" ∧
      report.completed ++ ["20250102-orders"] <+: ["20250101-users", "20250102-orders"]) ∧
    corruptRun.1 = .error reason ∧ corruptRun.2 = corrupt := by
  intro clock blocked corrupt reason blockedRun corruptRun
  have shown : ∃ plan, ((two.preview (.up .all)).run.run blocked).1 = .ok plan ∧
      plan.ids = ["20250101-users", "20250102-orders"] :=
    ⟨_, rfl, by decide +kernel⟩
  have stopped : blockedRun.1.map (·.failedId?) = .ok (some "20250102-orders") := by
    decide +kernel
  have refused : corruptRun.1 = .error reason := by decide +kernel
  obtain ⟨-, -, -, tells⟩ := two.preview_tells .plain (.up .all) clock blocked
  obtain ⟨-, -, unchanged, -⟩ := two.preview_tells .plain (.up .all) clock corrupt
  obtain ⟨plan, planned, ids⟩ := shown
  obtain ⟨report, reported, initial, -⟩ := tells plan planned
  have failed : report.failedId? = some "20250102-orders" := by
    have reported : blockedRun.1 = .ok report := reported
    rw [reported] at stopped
    exact Except.ok.inj stopped
  rw [failed, ids] at initial
  exact ⟨⟨report, reported, failed, initial⟩, refused, (unchanged reason refused).1⟩

end Migrator

end Stepwise
