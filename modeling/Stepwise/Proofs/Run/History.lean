import Stepwise.Proofs.Run.Data
import Stepwise.Proofs.Run.Initial

/-!
# Histories of runs

A history is any sequence of runs up and down that are refused before they have a plan or go through
all of it. When running down undoes running up, the data after a history that began with an empty
ledger are those that the recorded migrations build in order, as if there had been no run down
(`History.data_built`). The invariant is `Settled`: the recorded migrations are the first of the
registry, and they build the data.
-/

namespace Stepwise

/-- The stores to which runs lead that are refused before they have a plan or go through all of
it. -/
inductive History (migrator : Migrator) (s : Store) : Store → Prop
  | start : History migrator s s
  | refused {t : Store} {error : MigrationError} (target : RunTarget) (clock : Clock) :
      History migrator s t → ((migrator.migrate target clock).run.run t).1 = .error error →
      History migrator s ((migrator.migrate target clock).run.run t).2
  | completed {t : Store} {report : RunReport} (target : RunTarget) (clock : Clock) :
      History migrator s t → ((migrator.migrate target clock).run.run t).1 = .ok report →
      report.isSuccess → History migrator s ((migrator.migrate target clock).run.run t).2

/-- The migrations that a ledger records are the first of the registry, and they build the data. -/
structure Settled (migrator : Migrator) (start : SortedMap Collection) (t : Store)
    (units : List Migration) : Prop where
  initial : units <+: migrator.registry.migrations
  written : migrator.ledger.Written t
  recorded : ∀ id, id ∈ migrator.ledger.recorded t ↔ id ∈ units.map (·.id)
  built : Migration.Build migrator.ledger units start (migrator.ledger.data t)

namespace Settled

variable {migrator : Migrator} {start : SortedMap Collection} {s t : Store}
  {units : List Migration}

/-- Nothing is built when the ledger is empty. -/
theorem of_empty (empty : migrator.ledger.documents s = []) :
    Settled migrator (migrator.ledger.data s) s [] where
  initial := List.nil_prefix
  written := ⟨[], empty, List.nodup_nil⟩
  recorded := Ledger.Records.of_empty empty
  built := rfl

/-- A run that goes through its plan leaves the recorded migrations the first of the registry, and
what they build. -/
theorem run (settled : Settled migrator start s units)
    (spares : migrator.registry.Spares migrator.ledger.collection)
    (undone : ∀ m ∈ migrator.registry.migrations, m.reversibility = .reversible →
      m.Undone migrator.ledger)
    {target : RunTarget} {clock : Clock} {report : RunReport}
    (ran : ((migrator.migrate target clock).run.run s).1 = .ok report)
    (success : report.isSuccess) :
    ∃ after, Settled migrator start ((migrator.migrate target clock).run.run s).2 after := by
  have cases := migrator.run_migrate .plain target clock s
  simp only [Service.run_plain, Service.store_plain] at cases
  obtain ⟨error, failed, -⟩ | ⟨_, entries, plan, stages, ok, -, planned, -, -, course, -⟩ := cases
  · rw [ran] at failed
    contradiction
  rw [ran] at ok
  cases ok
  obtain ⟨found, -⟩ := Ledger.run_entries .plain migrator.ledger s
  simp only [Service.run_plain, Service.store_plain] at found
  rw [found] at course
  rw [IdSet.ofList_congr settled.recorded] at planned
  have finished : report.failure = none := Option.isNone_iff_eq_none.mp success
  have bodies : ∀ m ∈ plan.steps, (m.body (Pass.ofTarget entries target).direction).run.Spares
      migrator.ledger.collection := by
    intro m member
    exact spares m (Plan.mem_migrations planned member) _
  obtain ⟨written, recorded⟩ := course.recorded_iff bodies settled.written
  simp only [Service.store_plain, course.completed_all finished] at written recorded
  cases target with
  | up target =>
    have moved : migrator.ledger.Moved .up plan.steps s _ := ⟨written, recorded⟩
    have records : migrator.ledger.Records (units ++ plan.steps) _ :=
      Ledger.Records.up settled.recorded moved
    exact ⟨units ++ plan.steps, Plan.up_of_applied settled.initial planned, written, records,
      course.build rfl finished settled.built⟩
  | down target =>
    have moved : migrator.ledger.Moved .down plan.steps s _ := ⟨written, recorded⟩
    obtain ⟨rest, whole⟩ := Plan.down_of_applied settled.initial planned
    obtain rfl : units = rest.reverse ++ plan.steps.reverse := by
      rw [← List.reverse_append, whole, List.reverse_reverse]
    have nodup : ((rest.reverse ++ plan.steps.reverse).map (·.id)).Nodup :=
      migrator.registry.nodup_ids.sublist (settled.initial.sublist.map _)
    have records : migrator.ledger.Records rest.reverse _ :=
      Ledger.Records.down nodup settled.recorded moved
    have undo : ∀ m ∈ plan.steps, m.Undone migrator.ledger := by
      intro m member
      obtain ⟨registered, able⟩ := (Plan.steps_down planned).2 m member
      exact undone m registered able
    exact ⟨rest.reverse, (List.prefix_append _ _).trans settled.initial, written, records,
      course.unbuild rfl finished undo settled.built⟩

end Settled

/-- The recorded migrations build the data after every history that began with an empty ledger. -/
theorem History.settled {migrator : Migrator} {s t : Store}
    (empty : migrator.ledger.documents s = [])
    (spares : migrator.registry.Spares migrator.ledger.collection)
    (undone : ∀ m ∈ migrator.registry.migrations, m.reversibility = .reversible →
      m.Undone migrator.ledger)
    (history : History migrator s t) :
    ∃ units, Settled migrator (migrator.ledger.data s) t units := by
  induction history with
  | start => exact ⟨[], .of_empty empty⟩
  | @refused t error target clock _ failed ih =>
    obtain ⟨units, settled⟩ := ih
    obtain ⟨_, -, same⟩ | ⟨report, _, _, _, ok, -⟩ := migrator.run_migrate .plain target clock t
    · simp only [Service.run_plain, Service.store_plain] at same
      rw [same]
      exact ⟨units, settled⟩
    · rw [Service.run_plain, failed] at ok
      contradiction
  | completed target clock _ ran success ih =>
    obtain ⟨units, settled⟩ := ih
    exact settled.run spares undone ran success

/-- When running down undoes running up, the data after a history that began with an empty ledger
are what the recorded migrations build, each run up once and in ascending order, from the data at
the start. If they bring all identifying values, running them up on any store with those data ends
with the same data. -/
theorem History.data_built {migrator : Migrator} {s t : Store}
    (empty : migrator.ledger.documents s = [])
    (avoids : migrator.registry.Calls (·.Within (· ≠ migrator.ledger.collection)))
    (undone : ∀ m ∈ migrator.registry.migrations, m.reversibility = .reversible →
      m.Undone migrator.ledger)
    (history : History migrator s t) :
    let units := migrator.registry.migrations.filter (·.id ∈ migrator.ledger.recorded t)
    (∀ id, id ∈ migrator.ledger.recorded t ↔ id ∈ units.map (·.id)) ∧
    Migration.Ascending units ∧
    Migration.Build migrator.ledger units (migrator.ledger.data s) (migrator.ledger.data t) ∧
    ((∀ m ∈ units, (m.body .up).run.Identified) →
      ∀ start, migrator.ledger.data start = migrator.ledger.data s →
        ∃ finish, (Migration.runAll .up units).run.run start = (.ok (), finish) ∧
          migrator.ledger.data finish = migrator.ledger.data t) := by
  have spares : migrator.registry.Spares migrator.ledger.collection := by
    intro m member direction
    exact Script.spares_of_avoids (avoids m member direction)
  obtain ⟨units, settled⟩ := history.settled empty spares undone
  have same : migrator.registry.migrations.filter (·.id ∈ migrator.ledger.recorded t) = units := by
    obtain ⟨rest, whole⟩ := settled.initial
    have nodup := migrator.registry.nodup_ids
    rw [← whole, List.map_append, List.nodup_append] at nodup
    obtain ⟨-, -, apart⟩ := nodup
    have inside : units.filter (·.id ∈ migrator.ledger.recorded t) = units := by
      refine List.filter_eq_self.mpr fun m member => decide_eq_true ?_
      rw [settled.recorded]
      exact List.mem_map_of_mem member
    have outside : rest.filter (·.id ∈ migrator.ledger.recorded t) = [] := by
      refine List.filter_eq_nil_iff.mpr fun m member => ?_
      rw [decide_eq_true_eq, settled.recorded]
      intro recorded
      exact apart m.id recorded m.id (List.mem_map_of_mem member) rfl
    rw [← whole, List.filter_append, inside, outside, List.append_nil]
  have members : ∀ m ∈ units, (m.body .up).run.Avoids migrator.ledger.collection := by
    intro m member
    exact avoids m (settled.initial.subset member) .up
  have ascending : Migration.Ascending units :=
    migrator.registry.ascending.sublist settled.initial.sublist
  rw [same]
  refine ⟨settled.recorded, ascending, settled.built, fun identified start data => ?_⟩
  exact Migration.run_runAll settled.built members identified data

/-- A migration that is run up, down and up again is in the ledger, and its data are built. -/
theorem History.data_built_again :
    ∃ t, History .two {} t ∧ Migrator.two.ledger.recorded t = ["20250101-users"] ∧
      Migration.Build Migrator.two.ledger
        [(Definition.creating "20250101-users" "users").toMigration]
        (Migrator.two.ledger.data {}) (Migrator.two.ledger.data t) := by
  let up : Attempt MigrationError RunReport :=
    Migrator.two.migrate (.up (.to "20250101-users")) fun _ => ⟨⟨2025, 1, 3⟩, 8, 0, 0, 0⟩
  let down : Attempt MigrationError RunReport :=
    Migrator.two.migrate (.down (.count 1)) fun _ => ⟨⟨2025, 1, 3⟩, 8, 0, 0, 0⟩
  have first : (up.run.run {}).1 = .ok ⟨.up, some 1, ["20250101-users"], none⟩ := by
    decide +kernel
  have second : (down.run.run (up.run.run {}).2).1 =
      .ok ⟨.down, none, ["20250101-users"], none⟩ := by decide +kernel
  have third : (up.run.run (down.run.run (up.run.run {}).2).2).1 =
      .ok ⟨.up, some 1, ["20250101-users"], none⟩ := by decide +kernel
  have recorded : Migrator.two.ledger.recorded
      (up.run.run (down.run.run (up.run.run {}).2).2).2 = ["20250101-users"] := by decide +kernel
  have twice := History.completed _ _ (.completed _ _ .start first rfl) second rfl
  have history := History.completed _ _ twice third rfl
  have undone : ∀ m ∈ Migrator.two.registry.migrations, m.reversibility = .reversible →
      m.Undone Migrator.two.ledger := by
    intro m member _
    obtain ⟨id, name, -, rfl⟩ := Migrator.mem_two member
    exact Migration.undone_creating id name
  obtain ⟨-, -, built, -⟩ := History.data_built rfl Migrator.avoids_two undone history
  rw [recorded] at built
  exact ⟨_, history, recorded, built⟩

end Stepwise
