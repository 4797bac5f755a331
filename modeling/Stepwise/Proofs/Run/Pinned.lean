import Stepwise.Proofs.Run.Trace

/-!
# Pinned identifiers

A registry pins an identifier that it has no migration for, or one that cannot be undone. While a
ledger records a pinned identifier, no run down is planned that reverts anything up to it
(`Migrator.lt_of_pinned`). So whatever a ledger records up to a pinned identifier stays there, also
what enters it later, through all sequences of runs and whichever calls fail
(`Migrator.pinned_below`).
-/

namespace Stepwise

/-- Whether a registry has no migration with the identifier that can be undone. -/
def Registry.Pins (registry : Registry) (id : String) : Prop :=
  ∀ m ∈ registry.get? id, m.reversibility.isReversible = false

instance (registry : Registry) (id : String) : Decidable (registry.Pins id) :=
  inferInstanceAs (Decidable (∀ m ∈ registry.get? id, _))

/-- A run down does not revert what is pinned. -/
theorem Plan.not_mem_of_pinned {registry : Registry} {applied : IdSet} {target : DownTarget}
    {plan : Plan} (planned : Plan.down registry applied target = .ok plan) {id : String}
    (pinned : registry.Pins id) : id ∉ plan.ids := by
  intro inside
  obtain ⟨m, member, rfl⟩ := List.mem_map.mp inside
  obtain ⟨registered, reversible⟩ := (Plan.steps_down planned).2 m member
  have able := pinned m (Registry.get?_id registered)
  rw [reversible] at able
  contradiction

/-- Whether a ledger that records an identifier keeps what it records up to that. -/
def Ledger.Keeps (ledger : Ledger) (id : String) (s t : Store) : Prop :=
  id ∈ ledger.recorded s → ∀ other ≤ id, other ∈ ledger.recorded s → other ∈ ledger.recorded t

theorem Ledger.Keeps.trans {ledger : Ledger} {id : String} {s t u : Store}
    (first : ledger.Keeps id s t) (second : ledger.Keeps id t u) : ledger.Keeps id s u := by
  intro recorded other below inside
  have still := first recorded id (String.le_refl id) recorded
  exact second still other below (first recorded other below inside)

namespace Migrator

variable {migrator : Migrator} {target : RunTarget} {s t u : Store} {id : String}

/-- When a pinned identifier is recorded, a run down is to revert greater ones only. -/
theorem lt_of_pinned (pinned : migrator.registry.Pins id) (down : target.direction = .down)
    (recorded : id ∈ migrator.ledger.recorded s) : ∀ m ∈ migrator.planned target s, id < m.id := by
  rw [planned]
  split
  · next plan planned =>
    cases target with
    | up target => contradiction
    | down target =>
      refine Plan.lt_of_down planned ?_ (Plan.not_mem_of_pinned planned pinned)
      rw [IdSet.contains_ofList, decide_eq_true recorded]
  · exact List.forall_mem_nil _

/-- While the planned migrations move on, what is recorded up to a pinned identifier stays. -/
theorem keeps_of_movesOn (pinned : migrator.registry.Pins id)
    (moves : migrator.ledger.MovesOn target.direction (migrator.planned target s) s t u) :
    migrator.ledger.Keeps id t u := by
  obtain ⟨before, done, more, initial, first, second⟩ := moves
  intro recorded other below inside
  rw [first.recorded] at recorded inside
  rw [second.recorded]
  cases way : target.direction with
  | up =>
    rw [way] at inside
    exact inside.imp_right fun moved => (more.map _).subset moved
  | down =>
    -- A run down only takes away, so the pinned identifier was there when it was planned.
    rw [way] at recorded inside
    refine ⟨inside.1, fun moved => ?_⟩
    obtain ⟨m, member, rfl⟩ := List.mem_map.mp moved
    have above := migrator.lt_of_pinned pinned way recorded.1 m (initial.subset member)
    exact String.not_lt.mpr below above

variable {σ : Type} {v : Service σ} {x : σ}

/-- No body is started that would revert something up to a pinned identifier that is recorded. -/
theorem lt_of_starts (written : migrator.ledger.Written (v.store x))
    (spares : migrator.registry.Spares migrator.ledger.collection)
    (pinned : migrator.registry.Pins id) (clock : Clock) {moment : Moment σ}
    (member : moment ∈ migrator.moments v target clock x)
    (recorded : id ∈ migrator.ledger.recorded (v.store moment.state)) {other : String}
    (starts : moment.event = .starts .down other) : id < other := by
  obtain ⟨way, m, planned, rfl⟩ := migrator.mem_planned_of_starts v target clock x member starts
  have inside := List.mem_append_left
    [⟨(v.run (migrator.migrate target clock).run x).2, .pause⟩] member
  obtain ⟨done, -, moved⟩ := migrator.moved_moments v target clock written spares moment inside
  rw [moved.recorded, ← way] at recorded
  exact lt_of_pinned pinned way.symm recorded.1 m planned

private theorem keeps_trace (runs : List (RunTarget × Clock))
    (written : migrator.ledger.Written (v.store x))
    (spares : migrator.registry.Spares migrator.ledger.collection)
    (pinned : migrator.registry.Pins id) :
    (migrator.trace v runs x).Pairwise fun p q =>
      migrator.ledger.Keeps id (v.store p.state) (v.store q.state) := by
  refine pairwise_trace (migrator.ledger.Written <| v.store ·) runs written .trans
    fun target clock x written => ?_
  refine ⟨migrator.written_run v target clock written spares, ?_⟩
  have moves := migrator.movesOn_moments v target clock written spares
  exact moves.imp (keeps_of_movesOn pinned)

private theorem lt_of_starts_trace (runs : List (RunTarget × Clock))
    (written : migrator.ledger.Written (v.store x))
    (spares : migrator.registry.Spares migrator.ledger.collection)
    (pinned : migrator.registry.Pins id) :
    ∀ moment ∈ migrator.trace v runs x, id ∈ migrator.ledger.recorded (v.store moment.state) →
      ∀ other, moment.event = .starts .down other → id < other := by
  refine forall_trace (migrator.ledger.Written <| v.store ·) runs written nofun
    fun target clock x written => ?_
  refine ⟨migrator.written_run v target clock written spares, ?_⟩
  intro moment member recorded other
  exact lt_of_starts written spares pinned clock member recorded

/-- Once a ledger that is written by runs only records a pinned identifier, what it records up to
that is never removed, whether it is there already or enters later, and no body is ever started that
would revert it. -/
theorem pinned_below (runs : List (RunTarget × Clock)) {now : Moment σ} {later : List (Moment σ)}
    (written : migrator.ledger.Written (v.store x))
    (spares : migrator.registry.Spares migrator.ledger.collection)
    (reached : now :: later <:+ migrator.trace v runs x)
    (pinned : migrator.registry.Pins id)
    (recorded : id ∈ migrator.ledger.recorded (v.store now.state)) :
    (now :: later).Pairwise (fun p q => ∀ other ≤ id,
      other ∈ migrator.ledger.recorded (v.store p.state) →
        other ∈ migrator.ledger.recorded (v.store q.state)) ∧
    ∀ moment ∈ now :: later, ∀ other ≤ id, moment.event ≠ .starts .down other := by
  have kept := (keeps_trace runs written spares pinned).sublist reached.sublist
  have still : ∀ moment ∈ now :: later, id ∈ migrator.ledger.recorded (v.store moment.state) := by
    obtain ⟨first, -⟩ := List.pairwise_cons.mp kept
    refine List.forall_mem_cons.mpr ⟨recorded, fun moment member => ?_⟩
    exact first moment member recorded id (String.le_refl id) recorded
  refine ⟨kept.imp_of_mem ?_, ?_⟩
  · intro p q first _ keep
    exact keep (still p first)
  · intro moment member other below down
    have above := lt_of_starts_trace runs written spares pinned moment (reached.subset member)
      (still moment member) other down
    exact String.not_lt.mpr below above

/-- A migrator of three migrations, of which the middle one cannot be undone. -/
def pinning : Migrator where
  registry := two.registry.insert
    ((Definition.creating "20250101-views" "views").makeIrreversible "views are shared").toMigration
  ledger := two.ledger

private theorem spares_pinning : pinning.registry.Spares "migrations" := by
  intro m member direction
  refine Script.spares_of_avoids ?_
  obtain rfl | other := Registry.mem_place member
  · refine Definition.calls_body fun operation inside => ?_
    cases direction with
    | up =>
      obtain rfl := List.mem_singleton.mp inside
      decide
    | down => contradiction
  · exact avoids_two m other direction

/-- A run down that would undo the views is refused, a run up fails, and the next one puts the users
into the ledger, below the views. -/
theorem pinned_below_views :
    let clock : Clock := fun _ => ⟨⟨2025, 1, 3⟩, 8, 0, 0, 0⟩
    let entry : LedgerEntry := ⟨"20250101-views", ⟨⟨2025, 1, 2⟩, 8, 0, 0, 0⟩, 1⟩
    let host : Host :=
      { store := Store.after [.insert "migrations" entry.document]
        faults := [⟨.createCollection, none, .backend, "connection lost", 0, some 1⟩] }
    let trace := pinning.trace .host
      [(.down (.count 1), clock), (.up .all, clock), (.up .all, clock)] host
    pinning.ledger.recorded host.store = ["20250101-views"] ∧
    (∃ moment ∈ trace.getLast?, pinning.ledger.recorded moment.state.store =
      ["20250101-views", "20250101-users", "20250102-orders"]) ∧
    trace.Pairwise (fun p q => ∀ other ≤ "20250101-views",
      other ∈ pinning.ledger.recorded p.state.store →
        other ∈ pinning.ledger.recorded q.state.store) ∧
    ∀ moment ∈ trace, ∀ other ≤ "20250101-views", moment.event ≠ .starts .down other := by
  intro clock entry host trace
  have first : pinning.ledger.recorded host.store = ["20250101-views"] := by decide +kernel
  have last : ∃ moment ∈ trace.getLast?, pinning.ledger.recorded moment.state.store =
      ["20250101-views", "20250101-users", "20250102-orders"] := by decide +kernel
  have written : pinning.ledger.Written host.store := ⟨[entry], by decide, by decide⟩
  have pinned : pinning.registry.Pins "20250101-views" := by decide
  have recorded : "20250101-views" ∈ pinning.ledger.recorded host.store := by decide
  obtain ⟨later, whole⟩ := List.head?_eq_some_iff.mp (pinning.head?_trace .host host _)
  have kept := pinned_below _ written spares_pinning ⟨[], whole.symm⟩ pinned recorded
  rw [← whole] at kept
  exact ⟨first, last, kept⟩

end Migrator

end Stepwise
