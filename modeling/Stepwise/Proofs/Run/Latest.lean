import Stepwise.Proofs.Plan.Count
import Stepwise.Proofs.Run.Batch

/-!
# Taking back the latest run

In a history the registry may gain migrations, also below those that are applied already. A run up
then fills the gap. To revert as many migrations as the latest run has completed takes that run back
exactly if it filled no gap (`Ledger.count_reverts_latest`); otherwise it takes greater identifiers
of earlier runs instead (`Ledger.count_misses_latest`).
-/

namespace Stepwise

variable {σ : Type} {v : Service σ} {ledger : Ledger} {x : σ}

/-- What a run leaves in the ledger was there before or is registered. -/
theorem HistoricRun.mem_ids_of_recorded {run : HistoricRun} (written : ledger.Written (v.store x))
    (spares : run.registry.Spares ledger.collection) {id : String}
    (left : id ∈ ledger.recorded (v.store (run.ran v ledger x).2)) :
    id ∈ ledger.recorded (v.store x) ∨ id ∈ run.registry.ids := by
  obtain ⟨done, part, moved⟩ := (⟨run.registry, ledger⟩ : Migrator).moved_moments v run.target
    run.clock written spares ⟨(run.ran v ledger x).2, .pause⟩
    (List.mem_append_right _ (List.mem_singleton_self _))
  have held := (moved.recorded id).mp left
  cases way : run.target.direction with
  | up =>
    rw [way] at held
    refine held.imp_right fun inside => ?_
    obtain ⟨m, member, rfl⟩ := List.mem_map.mp inside
    exact List.mem_map_of_mem (Migrator.mem_registry_of_planned (part.subset member))
  | down =>
    rw [way] at held
    exact .inl held.1

namespace Ledger

variable {runs : List HistoricRun}

/-- In a history on an empty ledger, only runs have written it, and what is recorded is registered
in one of them. -/
theorem mem_ids_stateAt (empty : ledger.documents (v.store x) = [])
    (spares : ∀ run ∈ runs, run.registry.Spares ledger.collection) (i : Nat) :
    ledger.Written (v.store (ledger.stateAt v runs x i)) ∧
      ∀ id ∈ ledger.recorded (v.store (ledger.stateAt v runs x i)),
        ∃ run ∈ runs, id ∈ run.registry.ids := by
  refine stateAt_induction (p := fun y => ledger.Written (v.store y) ∧
      ∀ id ∈ ledger.recorded (v.store y), ∃ run ∈ runs, id ∈ run.registry.ids)
    ⟨⟨[], empty, List.nodup_nil⟩, fun id stored => ?_⟩ (fun run member y kept => ?_) i
  · rw [recorded, empty] at stored
    contradiction
  · obtain ⟨written, known⟩ := kept
    refine ⟨HistoricRun.written_ran written (spares run member), fun id left => ?_⟩
    obtain before | registered := HistoricRun.mem_ids_of_recorded written (spares run member) left
    · exact known id before
    · exact ⟨run, member, registered⟩

/-- After a run up that completed something, as the last of a history on an empty ledger, a run down
by the number of what it completed selects exactly that, last first, if and only if no migration of
its registry was missing below a recorded identifier when it began. Whatever is selected, the run
down goes through it, or is refused because some of it is irreversible. -/
theorem count_reverts_latest {last : HistoricRun} {registry : Registry} {report : RunReport}
    (empty : ledger.documents (v.store x) = [])
    (spares : ∀ run ∈ runs ++ [last], run.registry.Spares ledger.collection)
    (kept : ∀ run ∈ runs ++ [last], run.registry.migrations ⊆ registry.migrations)
    (up : last.target.direction = .up)
    (reported : (last.ran v ledger (ledger.stateAt v runs x runs.length)).1 = .ok report)
    (nonempty : report.completed ≠ []) :
    let before := ledger.stateAt v runs x runs.length
    let applied := IdSet.ofList (ledger.recorded (v.store (last.ran v ledger before).2))
    let count := DownTarget.count report.completed.length
    (Plan.selected applied count = report.completed.reverse ↔
      last.registry.Gapless (ledger.recorded (v.store before))) ∧
    ((∃ plan, Plan.down registry applied count = .ok plan ∧
        plan.ids = Plan.selected applied count) ∨
      ∃ m ∈ registry.migrations, ∃ reason, m.id ∈ Plan.selected applied count ∧
        m.reversibility = .irreversible reason ∧
        Plan.down registry applied count = .error (.irreversible m.id reason)) := by
  intro before applied count
  obtain ⟨others, own⟩ := List.forall_mem_append.mp spares
  rw [List.forall_mem_singleton] at own
  obtain ⟨written, known⟩ := mem_ids_stateAt empty others runs.length
  obtain ⟨plan, planned, initial, -, -, -, moved⟩ :=
    (⟨last.registry, ledger⟩ : Migrator).holds_of_ok v last.target last.clock before written own
      reported
  refine ⟨?_, Plan.down_count_cases fun id stored => ?_⟩
  · rw [up] at moved
    cases way : last.target with
    | down target =>
      rw [way] at up
      contradiction
    | up target =>
      rw [way] at planned
      have ascending := (Plan.ascending_up planned).sublist initial.sublist
      have fresh : ∀ id ∈ report.completed, id ∉ ledger.recorded (v.store before) := fun id done =>
        ((Plan.mem_ids_up planned id).mp (initial.subset done)).2.2
      rw [← Plan.above_iff_gapless planned initial nonempty]
      exact Plan.selected_count_iff ascending fresh moved
  · rw [SortedMap.mem_names, IdSet.contains_ofList, decide_eq_true_eq] at stored
    obtain earlier | latest := HistoricRun.mem_ids_of_recorded written own stored
    · obtain ⟨run, member, registered⟩ := known id earlier
      exact List.map_subset _ (kept run (List.mem_append_left _ member)) registered
    · exact List.map_subset _ (kept last (List.mem_append_right _ List.mem_cons_self)) latest

def alone (id name : String) : HistoricRun where
  registry := Registry.empty.insert (Definition.creating id name).toMigration
  target := .up .all
  clock := fun _ => ⟨⟨2025, 1, 3⟩, 8, 0, 0, 0⟩

def both : HistoricRun where
  registry := Migrator.two.registry
  target := .up .all
  clock := fun _ => ⟨⟨2025, 1, 4⟩, 8, 0, 0, 0⟩

/-- The registry gains a migration beyond the one that is applied. -/
theorem count_reverts_latest_beyond :
    let ledger := Migrator.two.ledger
    let before := ledger.stateAt .plain [alone "20250101-users" "users"] {} 1
    let applied := IdSet.ofList (ledger.recorded (both.ran .plain ledger before).2)
    both.registry.Gapless (ledger.recorded before) ∧
      ∃ plan, Plan.down both.registry applied (.count 1) = .ok plan ∧
        plan.ids = ["20250102-orders"] := by
  intro ledger before applied
  have kept : ∀ run ∈ [alone "20250101-users" "users"] ++ [both],
      run.registry.migrations ⊆ both.registry.migrations := by
    have less : (alone "20250101-users" "users").registry.migrations ⊆ both.registry.migrations :=
      List.cons_subset.mpr ⟨List.mem_cons_self, List.nil_subset _⟩
    simpa using less
  have spares : ∀ run ∈ [alone "20250101-users" "users"] ++ [both],
      run.registry.Spares ledger.collection := fun run member m inside direction =>
    Script.spares_of_avoids (Migrator.avoids_two m (kept run member inside) direction)
  have reported : (both.ran .plain ledger before).1 =
      .ok ⟨.up, some 2, ["20250102-orders"], none⟩ := by decide +kernel
  have gapless : both.registry.Gapless (ledger.recorded before) := by
    have recorded : ledger.recorded before = ["20250101-users"] := by decide +kernel
    rw [recorded, Registry.Gapless]
    decide
  obtain ⟨latest, ⟨plan, planned, ids⟩ | ⟨m, member, reason, -, irreversible, -⟩⟩ :=
    count_reverts_latest (v := .plain) rfl spares kept rfl reported (List.cons_ne_nil _ _)
  · exact ⟨gapless, plan, planned, ids.trans (latest.mpr gapless)⟩
  · obtain ⟨_, _, -, rfl⟩ := Migrator.mem_two member
    contradiction

/-- The registry gains a migration below the one that is applied. The run that applies it completes
nothing else, but a run down by one step takes back the other. -/
theorem count_misses_latest :
    let ledger := Migrator.two.ledger
    let before := ledger.stateAt .plain [alone "20250102-orders" "orders"] {} 1
    let applied := IdSet.ofList (ledger.recorded (both.ran .plain ledger before).2)
    (both.ran .plain ledger before).1 = .ok ⟨.up, some 2, ["20250101-users"], none⟩ ∧
      (Plan.down both.registry applied (.count 1)).map (·.ids) = .ok ["20250102-orders"] := by
  decide +kernel

end Ledger

end Stepwise
