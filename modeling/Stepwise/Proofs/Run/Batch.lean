import Stepwise.Proofs.Ledger.Entries
import Stepwise.Proofs.Ledger.Key
import Stepwise.Proofs.Run.Trace

/-!
# Batches

A history is a sequence of runs on one ledger, each with a registry of its own. It begins with an
empty ledger, and any call of any run may fail. The batch of a run up is above those of all entries
that it finds, though numbers are used again when the entries with the greatest ones are gone. So
two entries have the same batch exactly if the same run recorded them (`Ledger.batches_group`).
-/

namespace Stepwise

/-- A run of a history in which the registry may change. -/
structure HistoricRun where
  registry : Registry
  target : RunTarget
  clock : Clock

variable {σ : Type} (v : Service σ) (ledger : Ledger)

namespace HistoricRun

/-- The result of the run, and the state that it leaves. -/
def ran (run : HistoricRun) (x : σ) : Except MigrationError RunReport × σ :=
  v.run ((⟨run.registry, ledger⟩ : Migrator).migrate run.target run.clock).run x

variable {v ledger} {run : HistoricRun} {x : σ} {report : RunReport}

theorem written_ran (written : ledger.Written (v.store x))
    (spares : run.registry.Spares ledger.collection) :
    ledger.Written (v.store (run.ran v ledger x).2) :=
  Migrator.written_run v ⟨run.registry, ledger⟩ run.target run.clock written spares

/-- The report of a run up has a batch unless nothing was planned. It is above the batches of all
entries that the run finds, and positive and by no more than one above a bound of them if they are
positive. -/
theorem batch_of_ok (ok : (run.ran v ledger x).1 = .ok report) :
    (run.target.direction = .up → ∃ plan,
      Plan.ofTarget run.registry (IdSet.ofList (ledger.recorded (v.store x))) run.target =
        .ok plan ∧ (report.batch = none ↔ plan.steps = [])) ∧
    ∀ batch, report.batch = some batch →
      (∀ entry : LedgerEntry, entry.document ∈ ledger.documents (v.store x) →
        entry.batch < batch) ∧
      ∀ bound, 0 ≤ bound → (∀ document ∈ ledger.documents (v.store x), ∃ entry : LedgerEntry,
        document = entry.document ∧ 1 ≤ entry.batch ∧ entry.batch ≤ bound) →
        1 ≤ batch ∧ batch ≤ bound + 1 := by
  obtain ⟨error, failed, -⟩ | ⟨_, entries, plan, _, same, read, planned, -, numbered, -, -⟩ :=
    Migrator.run_migrate v ⟨run.registry, ledger⟩ run.target run.clock x
  · rw [ran, failed] at ok
    contradiction
  rw [ran, same] at ok
  cases ok
  have given := Ledger.run_entries_ok v ledger read
  refine ⟨fun up => ⟨plan, planned, ?_⟩, fun batch some => ?_⟩
  · cases way : run.target with
    | up target =>
      rw [numbered, way, ← List.isEmpty_iff]
      split
      · next empty => exact iff_of_true rfl empty
      · next filled => exact iff_of_false nofun filled
    | down target =>
      rw [way] at up
      contradiction
  · rw [numbered] at some
    split at some
    · contradiction
    · cases way : run.target with
      | down target =>
        rw [way] at some
        contradiction
      | up target =>
        rw [way] at some
        cases some
        refine ⟨fun entry member => ?_, fun bound least every => ?_⟩
        · obtain ⟨entries', mapped⟩ := LedgerEntry.exists_ofDocuments.mp ⟨entries, given⟩ _ member
          have read := (LedgerEntry.mem_of_ofDocuments given).mpr ⟨_, member, mapped⟩
          obtain ⟨-, batch⟩ := LedgerEntry.of_ofDocument_document mapped
          have below := LedgerEntry.batch_le_latestBatch read
          omega
        · have bounded : ∀ entry ∈ entries, 0 ≤ entry.batch ∧ entry.batch ≤ bound := by
            intro entry member
            obtain ⟨document, there, mapped⟩ := (LedgerEntry.mem_of_ofDocuments given).mp member
            obtain ⟨stored, rfl, bounds⟩ := every document there
            obtain ⟨-, batch⟩ := LedgerEntry.of_ofDocument_document mapped
            omega
          have low := LedgerEntry.le_latestBatch (Int.le_refl 0) fun entry member =>
            (bounded entry member).1
          have high := LedgerEntry.latestBatch_le (fun _ => least) fun entry member =>
            (bounded entry member).2
          omega

/-- An entry that a run leaves and did not find is one that a run up recorded, in its batch. -/
theorem exists_report (written : ledger.Written (v.store x))
    (spares : run.registry.Spares ledger.collection) {entry : LedgerEntry}
    (left : entry.document ∈ ledger.documents (v.store (run.ran v ledger x).2))
    (new : entry.document ∉ ledger.documents (v.store x)) :
    ∃ report, (run.ran v ledger x).1 = .ok report ∧ report.direction = .up ∧
      report.batch = some entry.batch ∧ entry.id ∈ report.completed := by
  obtain ⟨error, failed, same⟩ |
      ⟨report, entries, plan, stages, ok, -, planned, way, numbered, course, -⟩ :=
    Migrator.run_migrate v ⟨run.registry, ledger⟩ run.target run.clock x
  · rw [ran, same] at left
    contradiction
  obtain ⟨same, -⟩ := Ledger.run_entries v ledger x
  have bodies : ∀ m ∈ plan.steps,
      (m.body (Pass.ofTarget entries run.target).direction).run.Spares ledger.collection := by
    intro m member
    exact spares m (Plan.mem_migrations planned member) _
  have found : ledger.Written (v.store (v.run ledger.entries.run x).2) := by rwa [same]
  obtain ⟨-, recorded⟩ := course.recorded_iff bodies found
  have origin := course.mem_documents bodies left
  simp only [same] at recorded origin
  obtain ⟨stage, started, batch, applies, documents⟩ := origin.resolve_left new
  obtain ⟨id, numbers⟩ := LedgerEntry.of_document_eq documents
  have member : stage.migration ∈ plan.steps := course.mem_migrations started
  cases target : run.target with
  | down target =>
    rw [target] at applies
    contradiction
  | up target =>
    rw [target] at planned applies numbered way
    have fresh : entry.id ∉ ledger.recorded (v.store x) := by
      rw [id]
      exact Plan.not_mem_of_up planned _ member
    have there : entry.id ∈ ledger.recorded
        (v.store (run.ran v ledger x).2) := List.mem_filterMap.mpr ⟨_, left, rfl⟩
    refine ⟨report, ok, way, ?_, ?_⟩
    · rw [numbered, if_neg (List.isEmpty_eq_false_iff.mpr (List.ne_nil_of_mem member) ▸ nofun),
        applies, numbers]
      rfl
    · have held := (recorded entry.id).mp there
      rw [Pass.direction_ofTarget, target] at held
      exact held.resolve_left fresh

/-- What a run with a batch completes was not recorded before, and is recorded after it. -/
theorem recorded_of_ok (written : ledger.Written (v.store x))
    (spares : run.registry.Spares ledger.collection) (ok : (run.ran v ledger x).1 = .ok report)
    {batch : Int} (numbered : report.batch = some batch) :
    (∀ id ∈ report.completed, id ∉ ledger.recorded (v.store x)) ∧
    ∀ id ∈ report.completed, id ∈ ledger.recorded (v.store (run.ran v ledger x).2) := by
  obtain ⟨plan, planned, initial, -, upward, -, moved⟩ :=
    (⟨run.registry, ledger⟩ : Migrator).holds_of_ok v run.target run.clock x written spares ok
  have up := upward batch numbered
  rw [up] at moved
  refine ⟨fun id done => ?_, fun id done => (moved id).mpr (.inr done)⟩
  obtain ⟨m, member, rfl⟩ := List.mem_map.mp (initial.subset done)
  cases way : run.target with
  | down target =>
    rw [way] at up
    contradiction
  | up target =>
    rw [way] at planned
    exact Plan.not_mem_of_up planned m member

/-- What a run with a batch completes is recorded after it in that batch. -/
theorem batch_of_completed (written : ledger.Written (v.store x))
    (spares : run.registry.Spares ledger.collection) (ok : (run.ran v ledger x).1 = .ok report)
    {batch : Int} (numbered : report.batch = some batch) {entry : LedgerEntry}
    (left : entry.document ∈ ledger.documents (v.store (run.ran v ledger x).2))
    (done : entry.id ∈ report.completed) : entry.batch = batch := by
  have fresh := (recorded_of_ok written spares ok numbered).1 entry.id done
  have new : entry.document ∉ ledger.documents (v.store x) := by
    intro before
    exact fresh (List.mem_filterMap.mpr ⟨_, before, rfl⟩)
  obtain ⟨same, here, -, batched, -⟩ := exists_report written spares left new
  rw [ok] at here
  cases here
  rw [numbered] at batched
  exact (Option.some.inj batched).symm

/-- What a run with a batch completes has an entry in that batch after it. -/
theorem exists_of_completed (written : ledger.Written (v.store x))
    (spares : run.registry.Spares ledger.collection) (ok : (run.ran v ledger x).1 = .ok report)
    {batch : Int} (numbered : report.batch = some batch) {id : String}
    (done : id ∈ report.completed) : ∃ appliedAt, LedgerEntry.document ⟨id, appliedAt, batch⟩ ∈
      ledger.documents (v.store (run.ran v ledger x).2) := by
  have recorded := (recorded_of_ok written spares ok numbered).2 id done
  obtain ⟨entries, documents, -⟩ := written_ran written spares
  rw [Ledger.recorded_eq documents] at recorded
  obtain ⟨entry, member, rfl⟩ := List.mem_map.mp recorded
  have left : entry.document ∈ ledger.documents (v.store (run.ran v ledger x).2) :=
    documents ▸ List.mem_map_of_mem member
  obtain rfl := batch_of_completed written spares ok numbered left done
  exact ⟨entry.appliedAt, left⟩

end HistoricRun

namespace Ledger

/-- The state before the run of a number in a history, which is the state after it if there is no
such run. -/
def stateAt (runs : List HistoricRun) (x : σ) (n : Nat) : σ :=
  (runs.take n).foldl (fun x run => (run.ran v ledger x).2) x

/-- Whether the run of a number in a history recorded an entry that is in the ledger after the
history: the entry was not there before the run, and is there ever since. -/
structure RecordedBy (runs : List HistoricRun) (x : σ) (i : Nat) (entry : LedgerEntry) : Prop where
  lt_length : i < runs.length
  absent : entry.document ∉ ledger.documents (v.store (ledger.stateAt v runs x i))
  present : ∀ j, i < j → j ≤ runs.length →
    entry.document ∈ ledger.documents (v.store (ledger.stateAt v runs x j))

variable {v ledger} {runs : List HistoricRun} {x : σ}

theorem stateAt_succ {i : Nat} {run : HistoricRun} (here : runs[i]? = some run) :
    ledger.stateAt v runs x (i + 1) = (run.ran v ledger (ledger.stateAt v runs x i)).2 := by
  rw [stateAt, List.take_add_one, here, List.foldl_append]
  rfl

/-- What every run of a history keeps holds before each of them and after all. -/
theorem stateAt_induction {p : σ → Prop} (start : p x)
    (step : ∀ run ∈ runs, ∀ y, p y → p (run.ran v ledger y).2) (i : Nat) :
    p (ledger.stateAt v runs x i) := by
  rw [stateAt]
  refine List.foldlRecOn (motive := p) (runs.take i) _ start fun y held run member => ?_
  exact step run (List.mem_of_mem_take member) y held

/-- What holds of all entries of a ledger holds of one for each of its documents. -/
theorem Written.exists_entry {s : Store} (written : ledger.Written s) {p : LedgerEntry → Prop}
    (every : ∀ entry : LedgerEntry, entry.document ∈ ledger.documents s → p entry) :
    ∀ document ∈ ledger.documents s,
      ∃ entry : LedgerEntry, document = entry.document ∧ p entry := by
  obtain ⟨entries, documents, -⟩ := written
  intro document member
  obtain ⟨entry, -, rfl⟩ := List.mem_map.mp (documents ▸ member)
  exact ⟨entry, rfl, every entry member⟩

/-- Until each run, only runs have written the ledger, and batches are positive and no greater than
the number of runs. -/
theorem batches_stateAt (empty : ledger.documents (v.store x) = [])
    (spares : ∀ run ∈ runs, run.registry.Spares ledger.collection) (i : Nat) :
    ledger.Written (v.store (ledger.stateAt v runs x i)) ∧
    ∀ entry : LedgerEntry, entry.document ∈ ledger.documents (v.store (ledger.stateAt v runs x i)) →
      1 ≤ entry.batch ∧ entry.batch ≤ i := by
  induction i with
  | zero =>
    rw [stateAt, List.take_zero, List.foldl_nil, empty]
    exact ⟨⟨[], empty, List.nodup_nil⟩, fun _ => nofun⟩
  | succ i ih =>
    obtain ⟨written, bounds⟩ := ih
    cases here : runs[i]? with
    | none =>
      have long := List.getElem?_eq_none_iff.mp here
      have same : ledger.stateAt v runs x (i + 1) = ledger.stateAt v runs x i := by
        rw [stateAt, stateAt, List.take_of_length_le long, List.take_of_length_le (by omega)]
      rw [same]
      refine ⟨written, fun entry member => ?_⟩
      have bounded := bounds entry member
      omega
    | some run =>
      have spared := spares run (List.mem_of_getElem? here)
      rw [stateAt_succ here]
      refine ⟨HistoricRun.written_ran written spared, fun entry left => ?_⟩
      by_cases before : entry.document ∈ ledger.documents (v.store (ledger.stateAt v runs x i))
      · have bounded := bounds entry before
        omega
      · obtain ⟨report, ok, -, numbered, -⟩ :=
          HistoricRun.exists_report written spared left before
        obtain ⟨-, bound⟩ := (HistoricRun.batch_of_ok ok).2 _ numbered
        exact bound i (Int.natCast_nonneg i) (written.exists_entry bounds)

/-- Every entry in the ledger after a history is one that a run of the history recorded. -/
theorem exists_recordedBy (empty : ledger.documents (v.store x) = []) {entry : LedgerEntry}
    (member : entry.document ∈ ledger.documents (v.store (ledger.stateAt v runs x runs.length))) :
    ∃ i, RecordedBy v ledger runs x i entry := by
  have since (n : Nat) (last : n ≤ runs.length)
      (there : entry.document ∈ ledger.documents (v.store (ledger.stateAt v runs x n))) :
      ∃ i < n, entry.document ∉ ledger.documents (v.store (ledger.stateAt v runs x i)) ∧
        ∀ j, i < j → j ≤ n →
          entry.document ∈ ledger.documents (v.store (ledger.stateAt v runs x j)) := by
    induction n with
    | zero =>
      rw [stateAt, List.take_zero, List.foldl_nil, empty] at there
      contradiction
    | succ n ih =>
      by_cases before : entry.document ∈ ledger.documents (v.store (ledger.stateAt v runs x n))
      · obtain ⟨i, earlier, absent, present⟩ := ih (by omega) before
        refine ⟨i, by omega, absent, fun j later bounded => ?_⟩
        obtain here | rfl : j ≤ n ∨ j = n + 1 := by omega
        · exact present j later here
        · exact there
      · refine ⟨n, by omega, before, fun j later bounded => ?_⟩
        obtain rfl : j = n + 1 := by omega
        exact there
  obtain ⟨i, earlier, absent, present⟩ := since runs.length (Nat.le_refl _) member
  exact ⟨i, earlier, absent, present⟩

section

variable (empty : ledger.documents (v.store x) = [])
  (spares : ∀ run ∈ runs, run.registry.Spares ledger.collection)

include empty spares

/-- The run that recorded an entry is a run up that reports its batch and its identifier. -/
theorem RecordedBy.exists_report {i : Nat} {entry : LedgerEntry}
    (recorded : RecordedBy v ledger runs x i entry) {run : HistoricRun}
    (here : runs[i]? = some run) :
    ∃ report : RunReport, (run.ran v ledger (ledger.stateAt v runs x i)).1 = .ok report ∧
      report.direction = .up ∧ report.batch = some entry.batch ∧ entry.id ∈ report.completed := by
  obtain ⟨written, -⟩ := batches_stateAt empty spares i
  have left := recorded.present (i + 1) (Nat.lt_succ_self i) recorded.lt_length
  rw [stateAt_succ here] at left
  exact HistoricRun.exists_report written (spares run (List.mem_of_getElem? here)) left
    recorded.absent

/-- An entry has a smaller batch than those that later runs recorded. -/
theorem RecordedBy.batch_lt {i j : Nat} {a b : LedgerEntry}
    (first : RecordedBy v ledger runs x i a) (second : RecordedBy v ledger runs x j b)
    (earlier : i < j) : a.batch < b.batch := by
  obtain ⟨run, here⟩ : ∃ run, runs[j]? = some run :=
    ⟨_, List.getElem?_eq_getElem second.lt_length⟩
  obtain ⟨report, ok, -, numbered, -⟩ := second.exists_report empty spares here
  obtain ⟨above, -⟩ := (HistoricRun.batch_of_ok ok).2 _ numbered
  exact above a (first.present j earlier (Nat.le_of_lt second.lt_length))

/-- Entries have the same batch exactly if the same run recorded them. -/
theorem RecordedBy.batch_eq_iff {i j : Nat} {a b : LedgerEntry}
    (first : RecordedBy v ledger runs x i a) (second : RecordedBy v ledger runs x j b) :
    a.batch = b.batch ↔ i = j := by
  constructor
  · intro same
    obtain earlier | equal | later := Nat.lt_trichotomy i j
    · have below := first.batch_lt empty spares second earlier
      omega
    · exact equal
    · have below := second.batch_lt empty spares first later
      omega
  · rintro rfl
    obtain ⟨run, here⟩ : ∃ run, runs[i]? = some run :=
      ⟨_, List.getElem?_eq_getElem first.lt_length⟩
    obtain ⟨report, ok, -, numbered, -⟩ := first.exists_report empty spares here
    obtain ⟨report', ok', -, numbered', -⟩ := second.exists_report empty spares here
    rw [ok] at ok'
    cases ok'
    rw [numbered] at numbered'
    exact Option.some.inj numbered'

end

/-- Two entries of a ledger that only runs have written have the same batch exactly if the same run
recorded them, which is a run up that reports their batch and their identifiers. The batch of a run
up that has something to do is above those of all entries that it finds, and is recorded with
whatever the run completes. It is positive and no greater than the number of runs so far. -/
theorem batches_group (runs : List HistoricRun) (empty : ledger.documents (v.store x) = [])
    (spares : ∀ run ∈ runs, run.registry.Spares ledger.collection) :
    (∀ entry : LedgerEntry,
      entry.document ∈ ledger.documents (v.store (ledger.stateAt v runs x runs.length)) →
        ∃ i, RecordedBy v ledger runs x i entry) ∧
    (∀ i j a b, RecordedBy v ledger runs x i a → RecordedBy v ledger runs x j b →
      (a.batch = b.batch ↔ i = j)) ∧
    ∀ i run, runs[i]? = some run →
      let before := ledger.stateAt v runs x i
      let after := (run.ran v ledger before).2
      (∀ entry, RecordedBy v ledger runs x i entry →
        ∃ report : RunReport, (run.ran v ledger before).1 = .ok report ∧ report.direction = .up ∧
          report.batch = some entry.batch ∧ entry.id ∈ report.completed) ∧
      ∀ report : RunReport, (run.ran v ledger before).1 = .ok report →
        (run.target.direction = .up → ∃ plan,
          Plan.ofTarget run.registry (IdSet.ofList (ledger.recorded (v.store before))) run.target =
            .ok plan ∧ (report.batch = none ↔ plan.steps = [])) ∧
        ∀ batch : Int, report.batch = some batch →
          (1 ≤ batch ∧ batch ≤ i + 1) ∧
          (∀ entry : LedgerEntry, entry.document ∈ ledger.documents (v.store before) →
            entry.batch < batch) ∧
          (∀ id ∈ report.completed, ∃ appliedAt,
            LedgerEntry.document ⟨id, appliedAt, batch⟩ ∈ ledger.documents (v.store after)) ∧
          ∀ entry : LedgerEntry, entry.document ∈ ledger.documents (v.store after) →
            entry.id ∈ report.completed → entry.batch = batch := by
  refine ⟨fun entry member => exists_recordedBy empty member,
    fun i j a b first second => first.batch_eq_iff empty spares second,
    fun i run here => ⟨fun entry recorded => recorded.exists_report empty spares here,
      fun report ok => ?_⟩⟩
  obtain ⟨written, bounds⟩ := batches_stateAt empty spares i
  have spared := spares run (List.mem_of_getElem? here)
  obtain ⟨planned, numbers⟩ := HistoricRun.batch_of_ok ok
  refine ⟨planned, fun batch numbered => ?_⟩
  obtain ⟨above, bounded⟩ := numbers batch numbered
  refine ⟨bounded i (Int.natCast_nonneg i) (written.exists_entry bounds), above,
    fun id done => HistoricRun.exists_of_completed written spared ok numbered done,
    fun entry left done => HistoricRun.batch_of_completed written spared ok numbered left done⟩

/-- The third run, which stops in the body of the second migration, uses the number of the first
again, as the second has taken that back. The last run goes on in a batch of its own. -/
theorem batches_group_again :
    let clock : Clock := fun _ => ⟨⟨2025, 1, 3⟩, 8, 0, 0, 0⟩
    let host : Host :=
      { faults := [⟨.createCollection, some "orders", .backend, "connection lost", 0, some 1⟩] }
    let runs : List HistoricRun :=
      [.up (.to "20250101-users"), .down (.count 1), .up .all, .up .all].map
        fun target => ⟨Migrator.two.registry, target, clock⟩
    let users : LedgerEntry := ⟨"20250101-users", clock 0, 1⟩
    let orders : LedgerEntry := ⟨"20250102-orders", clock 0, 2⟩
    users.document ∈ Migrator.two.ledger.documents
        (Migrator.two.ledger.stateAt .host runs host 1).store ∧
      RecordedBy .host Migrator.two.ledger runs host 2 users ∧
      RecordedBy .host Migrator.two.ledger runs host 3 orders ∧
      (users.batch = orders.batch ↔ 2 = 3) := by
  intro clock host runs users orders
  have spares : ∀ run ∈ runs, run.registry.Spares "migrations" := by
    intro run member m registered direction
    obtain ⟨target, -, rfl⟩ := List.mem_map.mp member
    exact Script.spares_of_avoids (Migrator.avoids_two m registered direction)
  have first : RecordedBy .host Migrator.two.ledger runs host 2 users := by
    refine ⟨by decide, by decide +kernel, fun j later last => ?_⟩
    obtain rfl | rfl : j = 3 ∨ j = 4 := by
      change j ≤ 4 at last
      omega
    · decide +kernel
    · decide +kernel
  have second : RecordedBy .host Migrator.two.ledger runs host 3 orders := by
    refine ⟨by decide, by decide +kernel, fun j later last => ?_⟩
    obtain rfl : j = 4 := Nat.le_antisymm last later
    decide +kernel
  have empty : Migrator.two.ledger.documents (Service.host.store host) = [] := rfl
  obtain ⟨-, same, -⟩ := batches_group runs empty spares
  exact ⟨by decide +kernel, first, second, same 2 3 users orders first second⟩

end Ledger

end Stepwise
