import Stepwise.Proofs.Run.Trace

/-!
# Ledgers without gaps

A ledger is initial when it records the first migrations of a registry and nothing else. A run up
goes on where these end, and a run down goes back from there, so that a run of either kind leaves
the ledger initial wherever it stops (`Migrator.initial_of_moved`). From an empty ledger on, no
sequence of runs of one registry makes a gap, whichever calls fail (`Migrator.no_gaps`).
-/

namespace Stepwise

namespace Ledger

/-- Whether a ledger records migrations and nothing else. -/
def Records (ledger : Ledger) (units : List Migration) (s : Store) : Prop :=
  ∀ id, id ∈ ledger.recorded s ↔ id ∈ units.map (·.id)

/-- Whether a ledger records the first migrations of a registry and nothing else. -/
def Initial (ledger : Ledger) (registry : Registry) (s : Store) : Prop :=
  ∃ units, units <+: registry.migrations ∧ ledger.Records units s

variable {ledger : Ledger} {registry : Registry} {units done : List Migration} {s t : Store}

theorem Records.of_empty (empty : ledger.documents s = []) : ledger.Records [] s := by
  intro id
  rw [recorded, empty]
  rfl

theorem Records.up (records : ledger.Records units s) (moved : ledger.Moved .up done s t) :
    ledger.Records (units ++ done) t := by
  intro id
  rw [moved.recorded, List.map_append, List.mem_append, ← records]
  rfl

/-- What is reverted, last first, is no longer recorded. -/
theorem Records.down (nodup : ((units ++ done.reverse).map (·.id)).Nodup)
    (records : ledger.Records (units ++ done.reverse) s) (moved : ledger.Moved .down done s t) :
    ledger.Records units t := by
  intro id
  have reverted : id ∈ done.reverse.map (·.id) ↔ id ∈ done.map (·.id) := by
    rw [List.map_reverse, List.mem_reverse]
  have whole := records id
  rw [List.map_append, List.mem_append, reverted] at whole
  rw [List.map_append, List.nodup_append] at nodup
  obtain ⟨-, -, apart⟩ := nodup
  rw [moved.recorded]
  constructor
  · rintro ⟨before, left⟩
    exact (whole.mp before).resolve_right left
  · intro inside
    refine ⟨whole.mpr (.inl inside), fun also => ?_⟩
    exact apart id inside id (reverted.mpr also) rfl

/-- An initial ledger records the first identifiers of the registry. -/
theorem Initial.names (initial : ledger.Initial registry s) :
    (IdSet.ofList (ledger.recorded s)).names <+: registry.ids := by
  obtain ⟨units, first, records⟩ := initial
  have ascending : (units.map (·.id)).Pairwise (· < ·) :=
    registry.ascending_ids.sublist (first.sublist.map _)
  rw [IdSet.ofList_congr records, IdSet.names_ofList ascending]
  exact first.map _

/-- An initial ledger has no gaps. -/
theorem Initial.mem_of_lt (initial : ledger.Initial registry s) {id : String}
    (recorded : id ∈ ledger.recorded s) {m : Migration} (member : m ∈ registry.migrations)
    (less : m.id < id) : m.id ∈ ledger.recorded s := by
  obtain ⟨units, ⟨rest, whole⟩, records⟩ := initial
  rw [records] at recorded ⊢
  obtain ⟨n, inside, rfl⟩ := List.mem_map.mp recorded
  rw [← whole] at member
  obtain before | after := List.mem_append.mp member
  · exact List.mem_map_of_mem before
  · have ascending : Migration.Ascending (units ++ rest) := whole ▸ registry.ascending
    have greater := (List.pairwise_append.mp ascending).2.2 n inside m after
    exact absurd (String.lt_trans less greater) (String.lt_irrefl m.id)

end Ledger

namespace Migrator

variable {migrator : Migrator} {target : RunTarget} {done : List Migration} {s t : Store}

/-- An initial ledger stays initial while the planned migrations move. -/
theorem initial_of_moved (initial : migrator.ledger.Initial migrator.registry s)
    (part : done <+: migrator.planned target s)
    (moved : migrator.ledger.Moved target.direction done s t) :
    migrator.ledger.Initial migrator.registry t := by
  obtain ⟨units, first, records⟩ := initial
  rw [planned, IdSet.ofList_congr records] at part
  split at part
  · next plan planned =>
    cases target with
    | up target =>
      refine ⟨units ++ done, ?_, records.up moved⟩
      have further := (List.prefix_append_right_inj units).mpr part
      exact further.trans (Plan.up_of_applied first planned)
    | down target =>
      -- What is reverted is the end of what was recorded, and a beginning is left.
      obtain ⟨rest, whole⟩ := part.trans (Plan.down_of_applied first planned)
      have order : units = rest.reverse ++ done.reverse := by
        rw [← List.reverse_append, whole, List.reverse_reverse]
      have nodup : (units.map (·.id)).Nodup :=
        migrator.registry.nodup_ids.sublist (first.sublist.map _)
      rw [order] at first nodup records
      exact ⟨rest.reverse, (List.prefix_append _ _).trans first, records.down nodup moved⟩
  · obtain rfl := List.prefix_nil.mp part
    refine ⟨units, first, fun id => ?_⟩
    rw [moved.recorded, ← records]
    exact Direction.holds_nil ..

variable {σ : Type} {v : Service σ} {x : σ}

private theorem initial_trace (runs : List (RunTarget × Clock))
    (written : migrator.ledger.Written (v.store x))
    (spares : migrator.registry.Spares migrator.ledger.collection)
    (initial : migrator.ledger.Initial migrator.registry (v.store x)) :
    ∀ moment ∈ migrator.trace v runs x,
      migrator.ledger.Initial migrator.registry (v.store moment.state) := by
  refine forall_trace (fun x => migrator.ledger.Written (v.store x) ∧
    migrator.ledger.Initial migrator.registry (v.store x)) runs ⟨written, initial⟩
    (fun x kept => kept.2) fun target clock x ⟨written, initial⟩ => ?_
  have during : ∀ moment ∈ migrator.moments v target clock x ++
      [⟨(v.run (migrator.migrate target clock).run x).2, .pause⟩],
      migrator.ledger.Initial migrator.registry (v.store moment.state) := by
    intro moment member
    obtain ⟨done, part, moved⟩ :=
      migrator.moved_moments v target clock written spares moment member
    exact initial_of_moved initial part moved
  rw [List.forall_mem_append, List.forall_mem_singleton] at during
  exact ⟨⟨migrator.written_run v target clock written spares, during.2⟩, during.1⟩

/-- From an empty ledger on, runs of one registry make no gaps, whichever calls fail: after them,
and at every moment before, the identifiers in the ledger are the first of the registry. -/
theorem no_gaps (runs : List (RunTarget × Clock))
    (empty : migrator.ledger.documents (v.store x) = [])
    (spares : migrator.registry.Spares migrator.ledger.collection) :
    (migrator.trace v runs x).getLast? = some ⟨migrator.after v x runs, .pause⟩ ∧
    ∀ moment ∈ migrator.trace v runs x,
      (IdSet.ofList (migrator.ledger.recorded (v.store moment.state))).names <+:
        migrator.registry.ids ∧
      ∀ id ∈ migrator.ledger.recorded (v.store moment.state), ∀ m ∈ migrator.registry.migrations,
        m.id < id → m.id ∈ migrator.ledger.recorded (v.store moment.state) := by
  have written : migrator.ledger.Written (v.store x) := ⟨[], empty, List.nodup_nil⟩
  have initial : migrator.ledger.Initial migrator.registry (v.store x) :=
    ⟨[], List.nil_prefix, .of_empty empty⟩
  refine ⟨migrator.getLast?_trace v x runs, fun moment member => ?_⟩
  have here := initial_trace runs written spares initial moment member
  exact ⟨here.names, fun id recorded m registered => here.mem_of_lt recorded registered⟩

/-- The first run stops as its second write to the ledger fails, the last one as the collection of
the orders is still there. -/
theorem no_gaps_full :
    let clock : Clock := fun _ => ⟨⟨2025, 1, 3⟩, 8, 0, 0, 0⟩
    let host : Host :=
      { faults := [⟨.insert, some "migrations", .backend, "disk full", 1, some 1⟩] }
    let trace := two.trace .host
      [(.up .all, clock), (.down (.count 1), clock), (.up .all, clock)] host
    ((trace.filter (·.event = .pause)).map fun moment =>
        two.ledger.recorded moment.state.store) = [[], ["20250101-users"], [], ["20250101-users"]] ∧
    ∀ moment ∈ trace,
      (IdSet.ofList (two.ledger.recorded moment.state.store)).names <+: two.registry.ids ∧
      ∀ id ∈ two.ledger.recorded moment.state.store, ∀ m ∈ two.registry.migrations,
        m.id < id → m.id ∈ two.ledger.recorded moment.state.store := by
  intro clock host trace
  have recorded : ((trace.filter (·.event = .pause)).map fun moment =>
      two.ledger.recorded moment.state.store) =
        [[], ["20250101-users"], [], ["20250101-users"]] := by decide +kernel
  have spares : two.registry.Spares "migrations" := by
    intro m member direction
    exact Script.spares_of_avoids (avoids_two m member direction)
  exact ⟨recorded, (no_gaps _ rfl spares).2⟩

end Migrator

end Stepwise
