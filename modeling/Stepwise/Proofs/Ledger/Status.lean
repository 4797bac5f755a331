import Mathlib.Data.List.Dedup
import Stepwise.Proofs.Ledger.Entries
import Stepwise.Proofs.Ledger.Key
import Stepwise.Proofs.Run.Preview
import Stepwise.Status

/-!
# What a status tells

A ledger can be at odds with a registry: it may hold identifiers without a migration, and it may
hold an identifier more than once. The status divides the identifiers of any ledger that can be read
into those of applied migrations and those of orphans, each once (`StatusReport.Faithful`), and the
planner draws the same line (`Migrator.status_faithful`).
-/

namespace Stepwise

namespace LedgerEntry

/-- The entries by identifier; of those with the same one, the last. -/
def byId (entries : List LedgerEntry) : SortedMap LedgerEntry :=
  SortedMap.ofList (entries.map fun entry => (entry.id, entry))

variable {entries : List LedgerEntry} {id : String}

private theorem contains_byId : (byId entries).contains id = true ↔ id ∈ entries.map (·.id) := by
  rw [byId, SortedMap.contains_ofList, decide_eq_true_eq, List.map_map]
  rfl

private theorem mem_of_byId {entry : LedgerEntry} (found : (byId entries).get? id = some entry) :
    entry ∈ entries ∧ entry.id = id := by
  have among := SortedMap.mem_of_get?_ofList found
  obtain ⟨other, member, same⟩ := List.mem_map.mp among
  cases same
  exact ⟨member, rfl⟩

private theorem mem_names_ids : id ∈ (ids entries).names ↔ id ∈ entries.map (·.id) := by
  rw [SortedMap.mem_names, ids, IdSet.contains_ofList, decide_eq_true_eq]

end LedgerEntry

namespace UnitState

private theorem isApplied_ofEntry (stored? : Option LedgerEntry) :
    (ofEntry stored?).isApplied = stored?.isSome := by
  cases stored? <;> rfl

private theorem ofEntry_eq_applied {stored? : Option LedgerEntry} {instant : Instant}
    {batch : Int} :
    ofEntry stored? = .applied instant batch ↔
      ∃ entry, stored? = some entry ∧ entry.appliedAt = instant ∧ entry.batch = batch := by
  cases stored? <;> simp [ofEntry]

end UnitState

namespace StatusReport

/-- What a status has to tell of a registry and the entries of a ledger. -/
structure Faithful (registry : Registry) (entries : List LedgerEntry) (report : StatusReport) :
    Prop where
  /-- There is one unit for each migration, in the same order. -/
  units : report.units.map (fun unit => (unit.id, unit.description, unit.reversible)) =
    registry.migrations.map fun m => (m.id, m.description, m.reversibility.isReversible)
  ascending : (report.units.map (·.id)).Pairwise (· < ·)
  applied_iff : ∀ unit ∈ report.units,
    unit.state.isApplied = true ↔ unit.id ∈ entries.map (·.id)
  /-- The instant and the batch of a unit are those of an entry. -/
  mem_of_applied : ∀ unit ∈ report.units, ∀ instant batch,
    unit.state = .applied instant batch → ⟨unit.id, instant, batch⟩ ∈ entries
  orphans_ascending : (report.orphans.map (·.id)).Pairwise (· < ·)
  orphans_subset : report.orphans ⊆ entries
  orphan_iff : ∀ id,
    id ∈ report.orphans.map (·.id) ↔ id ∈ entries.map (·.id) ∧ id ∉ registry.ids
  /-- Every identifier of the ledger is that of one applied unit or of one orphan. -/
  partition : (report.appliedIds ++ report.orphans.map (·.id)).Perm (entries.map (·.id)).dedup

variable {registry : Registry} {entries : List LedgerEntry} {report : StatusReport}

private theorem orphanIds_ofEntries : (ofEntries registry entries).orphans.map (·.id) =
    (LedgerEntry.byId entries).names.filter (!registry.contains ·) := by
  have orphans : (ofEntries registry entries).orphans = ((LedgerEntry.byId entries).entries.filter
    fun entry => !registry.contains entry.1).map (·.2) := rfl
  rw [orphans, SortedMap.names, List.filter_map, List.map_map]
  refine List.map_congr_left fun entry member => ?_
  have stored := SortedMap.mem_entries.mp (List.mem_of_mem_filter member)
  exact (LedgerEntry.mem_of_byId stored).2

private theorem ids_ofEntries : (ofEntries registry entries).units.map (·.id) = registry.ids :=
  List.map_map ..

private theorem applied_iff_ofEntries :
    ∀ unit ∈ (ofEntries registry entries).units,
      unit.state.isApplied = true ↔ unit.id ∈ entries.map (·.id) := by
  intro unit member
  obtain ⟨m, -, rfl⟩ := List.mem_map.mp member
  rw [← LedgerEntry.contains_byId, UnitState.isApplied_ofEntry]
  rfl

/-- The units that are applied are those that are in the ledger. -/
theorem mem_appliedIds (applied : ∀ unit ∈ report.units,
      unit.state.isApplied = true ↔ unit.id ∈ entries.map (·.id)) {id : String} :
    id ∈ report.appliedIds ↔ id ∈ report.units.map (·.id) ∧ id ∈ entries.map (·.id) := by
  rw [appliedIds, List.mem_map, List.mem_map]
  constructor
  · rintro ⟨unit, member, rfl⟩
    obtain ⟨member, state⟩ := List.mem_filter.mp member
    exact ⟨⟨unit, member, rfl⟩, (applied unit member).mp state⟩
  · rintro ⟨⟨unit, member, rfl⟩, inside⟩
    exact ⟨unit, List.mem_filter.mpr ⟨member, (applied unit member).mpr inside⟩, rfl⟩

/-- Where the units are those of the registry and the orphans all others, each identifier of the
ledger is told once. -/
theorem partition_of_iff (ids : report.units.map (·.id) = registry.ids)
    (applied : ∀ unit ∈ report.units,
      unit.state.isApplied = true ↔ unit.id ∈ entries.map (·.id))
    (ascending : (report.orphans.map (·.id)).Pairwise (· < ·))
    (orphan : ∀ id,
      id ∈ report.orphans.map (·.id) ↔ id ∈ entries.map (·.id) ∧ id ∉ registry.ids) :
    (report.appliedIds ++ report.orphans.map (·.id)).Perm (entries.map (·.id)).dedup := by
  have units : (report.units.map (·.id)).Nodup := ids ▸ registry.nodup_ids
  have apart : (report.appliedIds ++ report.orphans.map (·.id)).Nodup := by
    refine List.nodup_append'.mpr ⟨?_, ascending.nodup, fun id inside orphaned => ?_⟩
    · exact units.sublist (List.filter_sublist.map _)
    · rw [mem_appliedIds applied, ids] at inside
      exact ((orphan id).mp orphaned).2 inside.1
  refine (List.perm_ext_iff_of_nodup apart (List.nodup_dedup _)).mpr fun id => ?_
  rw [List.mem_append, mem_appliedIds applied, ids, orphan, List.mem_dedup, and_comm, ← and_or_left]
  exact and_iff_left (Decidable.em _)

theorem faithful_ofEntries (registry : Registry) (entries : List LedgerEntry) :
    (ofEntries registry entries).Faithful registry entries := by
  have ascending : ((ofEntries registry entries).units.map (·.id)).Pairwise (· < ·) := by
    rw [ids_ofEntries]
    exact registry.ascending_ids
  have orphans : ((ofEntries registry entries).orphans.map (·.id)).Pairwise (· < ·) := by
    rw [orphanIds_ofEntries]
    exact (SortedMap.ascending_names _).sublist List.filter_sublist
  have orphan (id : String) : id ∈ (ofEntries registry entries).orphans.map (·.id) ↔
      id ∈ entries.map (·.id) ∧ id ∉ registry.ids := by
    rw [orphanIds_ofEntries, List.mem_filter, SortedMap.mem_names, LedgerEntry.contains_byId,
      Bool.not_eq_true', ← Bool.not_eq_true, Registry.contains_iff]
  refine ⟨List.map_map .., ascending, applied_iff_ofEntries, ?_, orphans, ?_, orphan,
    partition_of_iff ids_ofEntries applied_iff_ofEntries orphans orphan⟩
  · intro unit member instant batch applied
    obtain ⟨m, -, rfl⟩ := List.mem_map.mp member
    obtain ⟨entry, found, rfl, rfl⟩ := UnitState.ofEntry_eq_applied.mp applied
    obtain ⟨member, same⟩ := LedgerEntry.mem_of_byId found
    rwa [← same]
  · intro entry member
    obtain ⟨stored, among, rfl⟩ := List.mem_map.mp member
    have found := SortedMap.mem_entries.mp (List.mem_of_mem_filter among)
    exact (LedgerEntry.mem_of_byId found).1

namespace Faithful

private theorem ids_eq (faithful : report.Faithful registry entries) :
    report.units.map (·.id) = registry.ids := by
  have triples := congrArg (List.map Prod.fst) faithful.units
  rwa [List.map_map, List.map_map] at triples

private theorem exists_unit (faithful : report.Faithful registry entries) {m : Migration}
    (member : m ∈ registry.migrations) :
    ∃ unit ∈ report.units, unit.id = m.id ∧ unit.reversible = m.reversibility.isReversible := by
  have triple := List.mem_map_of_mem
    (f := fun m : Migration => (m.id, m.description, m.reversibility.isReversible)) member
  rw [← faithful.units] at triple
  obtain ⟨unit, among, same⟩ := List.mem_map.mp triple
  simp only [Prod.mk.injEq] at same
  exact ⟨unit, among, same.1, same.2.2⟩

/-- What is pending is what a run up goes through. -/
theorem pendingIds_eq (faithful : report.Faithful registry entries) :
    report.pendingIds =
      (Plan.pending registry.migrations (LedgerEntry.ids entries) none).map (·.id) := by
  have pending : report.units.filter (!·.state.isApplied) =
      report.units.filter fun unit => unit.id ∉ entries.map (·.id) := by
    refine List.filter_congr fun unit member => ?_
    rw [Bool.eq_iff_iff, Bool.not_eq_true', ← Bool.not_eq_true, faithful.applied_iff unit member,
      decide_eq_true_eq]
  have planned : Plan.pending registry.migrations (LedgerEntry.ids entries) none =
      registry.migrations.filter fun m => m.id ∉ entries.map (·.id) := by
    refine List.filter_congr fun m _ => ?_
    rw [LedgerEntry.ids, IdSet.contains_ofList, Option.all_none, Bool.true_and, decide_not]
  have ids (ids : List String) : registry.ids.filter (· ∉ ids) =
      (registry.migrations.filter fun m => m.id ∉ ids).map (·.id) := List.filter_map
  rw [pendingIds, pending, planned, ← ids, ← faithful.ids_eq, List.filter_map]
  rfl

/-- A run down by at least the number of identifiers selects all of them. -/
theorem mem_selected_iff {n : Nat} (all : (entries.map (·.id)).dedup.length ≤ n) {id : String} :
    id ∈ Plan.selected (LedgerEntry.ids entries) (.count n) ↔ id ∈ entries.map (·.id) := by
  have same : (LedgerEntry.ids entries).names.Perm (entries.map (·.id)).dedup := by
    have nodup := (LedgerEntry.ids entries).ascending_names.nodup
    refine (List.perm_ext_iff_of_nodup nodup (List.nodup_dedup _)).mpr fun id => ?_
    rw [LedgerEntry.mem_names_ids, List.mem_dedup]
  have whole : (LedgerEntry.ids entries).names.reverse.length ≤ n := by
    rwa [List.length_reverse, same.length_eq]
  rw [Plan.selected, List.take_of_length_le whole, List.mem_reverse, LedgerEntry.mem_names_ids]

/-- All that is in a ledger can be undone exactly if nothing of it is an orphan, and all units that
are applied are reversible. -/
theorem exists_down_iff (faithful : report.Faithful registry entries) {n : Nat}
    (all : (entries.map (·.id)).dedup.length ≤ n) :
    (∃ plan, Plan.down registry (LedgerEntry.ids entries) (.count n) = .ok plan) ↔
      report.orphans = [] ∧
        ∀ unit ∈ report.units, unit.state.isApplied = true → unit.reversible = true := by
  have known : Plan.isKnown registry (LedgerEntry.ids entries) (.count n) = true := rfl
  simp only [Plan.exists_down known, mem_selected_iff all, Plan.revertible_eq_ok]
  constructor
  · intro revertible
    refine ⟨List.eq_nil_iff_forall_not_mem.mpr fun entry orphan => ?_,
      fun unit member applied => ?_⟩
    · obtain ⟨stored, unknown⟩ := (faithful.orphan_iff _).mp (List.mem_map_of_mem orphan)
      obtain ⟨m, present, -⟩ := revertible _ stored
      obtain ⟨registered, same⟩ := Registry.mem_of_get? present
      exact unknown (same ▸ List.mem_map_of_mem registered)
    · obtain ⟨m, present, reversible⟩ :=
        revertible unit.id ((faithful.applied_iff unit member).mp applied)
      obtain ⟨registered, same⟩ := Registry.mem_of_get? present
      obtain ⟨other, among, id, flag⟩ := faithful.exists_unit registered
      have alone : other = unit :=
        List.inj_on_of_nodup_map faithful.ascending.nodup among member (id.trans same)
      rw [← alone, flag, reversible]
      rfl
  · rintro ⟨none, reversible⟩ id stored
    have registered : id ∈ registry.ids := by
      by_contra unknown
      have orphan := (faithful.orphan_iff id).mpr ⟨stored, unknown⟩
      rw [none] at orphan
      contradiction
    obtain ⟨m, member, rfl⟩ := List.mem_map.mp registered
    obtain ⟨unit, among, same, flag⟩ := faithful.exists_unit member
    have applied := (faithful.applied_iff unit among).mpr (same ▸ stored)
    rw [reversible unit among applied] at flag
    refine ⟨m, Registry.get?_id member, ?_⟩
    cases state : m.reversibility with
    | reversible => rfl
    | irreversible reason =>
      rw [state] at flag
      contradiction

end Faithful

end StatusReport

namespace Migrator

variable (migrator : Migrator) (s : Store)

theorem run_status : migrator.status.run.run s =
    (((LedgerEntry.ofDocuments (migrator.ledger.documents s)).map
      (StatusReport.ofEntries migrator.registry)).mapError MigrationError.ledger, s) := by
  rw [← Service.run_plain, status, Service.run_attempt_bind, Service.run_plain,
    Ledger.run_entries_plain]
  cases LedgerEntry.ofDocuments (migrator.ledger.documents s) <;> rfl

/-- Reading the status changes nothing, and fails exactly where the ledger cannot be read, for the
same reason. Any other status is faithful to the registry and to the entries of the ledger. What it
tells to be pending is the plan of a run up, in order, and a run down that may take all that is in
the ledger has a plan exactly if there are no orphans and every applied unit is reversible. -/
theorem status_faithful :
    let status := migrator.status.run.run s
    let read := migrator.ledger.entries.run.run s
    status.2 = s ∧
    (∀ error, status.1 = .error error ↔ read.1 = .error error) ∧
    ((∃ report, status.1 = .ok report) ↔ migrator.ledger.Readable s) ∧
    ∀ report, status.1 = .ok report → ∃ entries, read.1 = .ok entries ∧
      report.Faithful migrator.registry entries ∧
      (∃ plan, ((migrator.planUp .all).run.run s).1 = .ok plan ∧ plan.ids = report.pendingIds) ∧
      ∀ n, (entries.map (·.id)).dedup.length ≤ n →
        ((∃ plan, ((migrator.planDown (.count n)).run.run s).1 = .ok plan) ↔
          report.orphans = [] ∧
            ∀ unit ∈ report.units, unit.state.isApplied = true → unit.reversible = true) := by
  intro status read
  have told : status = _ := migrator.run_status s
  have gave : read = _ := migrator.ledger.run_entries_plain s
  have readable : (∃ entries, LedgerEntry.ofDocuments (migrator.ledger.documents s) = .ok entries) ↔
      migrator.ledger.Readable s := LedgerEntry.exists_ofDocuments
  rw [← readable, told, gave]
  cases given : LedgerEntry.ofDocuments (migrator.ledger.documents s) with
  | error cause =>
    refine ⟨rfl, fun error => ?_, iff_of_false nofun nofun, fun report reported => ?_⟩
    · simp only [Except.map, Except.mapError, Except.error.injEq]
    · contradiction
  | ok entries =>
    refine ⟨rfl, fun error => iff_of_false nofun nofun, iff_of_true ⟨_, rfl⟩ ⟨_, rfl⟩,
      fun report reported => ?_⟩
    cases reported
    have faithful := StatusReport.faithful_ofEntries migrator.registry entries
    refine ⟨entries, rfl, faithful, ?_, fun n all => ?_⟩
    · have planned := migrator.run_preview (.up .all) s
      rw [given] at planned
      exact ⟨_, planned, faithful.pendingIds_eq.symm⟩
    · have planned : ((migrator.planDown (.count n)).run.run s).1 =
          Plan.down migrator.registry (LedgerEntry.ids entries) (.count n) := by
        refine (migrator.run_preview (.down (.count n)) s).trans ?_
        rw [given]
        rfl
      rw [planned, faithful.exists_down_iff all]

/-- A ledger with an orphan, and with a migration that is recorded twice. -/
def strayed : Store :=
  let entry (id recorded : String) (batch : Int) : Call := .insert "migrations" [("_id", .str id),
    ("migration_id", .str recorded), ("applied_at", .str "2025-01-03T08:00:00Z"),
    ("batch", .num (.int batch))]
  Store.after [entry "20240101-old" "20240101-old" 1, entry "20250101-users" "20250101-users" 1,
    entry "again" "20250101-users" 2]

/-- The migration that is recorded twice is told once, in one of its two batches. As there is an
orphan, no run down that may take all has a plan. -/
theorem status_faithful_strayed :
    ∃ report, (two.status.run.run strayed).1 = .ok report ∧
      report.units.map (fun unit => (unit.id, unit.state)) =
        [("20250101-users", .applied ⟨⟨2025, 1, 3⟩, 8, 0, 0, 0⟩ 2), ("20250102-orders", .pending)] ∧
      (report.appliedIds ++ report.orphans.map (·.id)).Perm ["20240101-old", "20250101-users"] ∧
      (∃ plan, ((two.planUp .all).run.run strayed).1 = .ok plan ∧ plan.ids = ["20250102-orders"]) ∧
      ∀ n, 2 ≤ n → ¬ ∃ plan, ((two.planDown (.count n)).run.run strayed).1 = .ok plan := by
  let now : Instant := ⟨⟨2025, 1, 3⟩, 8, 0, 0, 0⟩
  let entries : List LedgerEntry :=
    [⟨"20240101-old", now, 1⟩, ⟨"20250101-users", now, 1⟩, ⟨"20250101-users", now, 2⟩]
  let report : StatusReport :=
    { units := [⟨"20250101-users", none, true, .applied now 2⟩,
        ⟨"20250102-orders", none, true, .pending⟩]
      orphans := [⟨"20240101-old", now, 1⟩] }
  have given : LedgerEntry.ofDocuments (two.ledger.documents strayed) = .ok entries :=
    LedgerEntry.ofDocuments_of_ascending (by decide +kernel) (by decide)
  have told : (two.status.run.run strayed).1 = .ok report := by
    rw [run_status, given]
    decide +kernel
  obtain ⟨-, -, -, tells⟩ := two.status_faithful strayed
  obtain ⟨others, read, faithful, planned, down⟩ := tells report told
  rw [Ledger.run_entries_plain, given] at read
  cases read
  refine ⟨report, told, rfl, faithful.partition, planned, fun n all plan => ?_⟩
  have orphaned := ((down n all).mp plan).1
  contradiction

end Migrator

end Stepwise
