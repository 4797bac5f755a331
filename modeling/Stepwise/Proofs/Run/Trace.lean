import Mathlib.Data.List.Chain
import Stepwise.Proofs.Run.Course

/-!
# Traces of runs

The trace of a sequence of runs is the list of its moments: the pauses before, between and after the
runs, the starts of bodies, and the calls, each with the state at that moment. A run makes the calls
of its moments and no others (`Migrator.log_migrate`). At each moment of a run, the first of the
planned migrations have moved in the ledger and nothing else has (`Migrator.moved_moments`), and
from one moment to the later ones they move on (`Migrator.movesOn_moments`). What holds of all
moments, or between a moment and the later ones, is shown for one run and then holds for a trace
(`Migrator.forall_trace`, `Migrator.pairwise_trace`).
-/

namespace Stepwise

variable {σ : Type}

inductive Event where
  /-- Nothing: no run is under way. -/
  | pause
  /-- The body of the migration with the identifier is started. -/
  | starts (direction : Direction) (id : String)
  /-- A call is made. -/
  | calls (c : Call)
deriving DecidableEq, Repr

structure Moment (σ : Type) where
  state : σ
  event : Event

/-- The call that is made at a moment, with the state in which it is made. -/
def Moment.call? (moment : Moment σ) : Option (σ × Call) :=
  match moment.event with
  | .calls c => some (moment.state, c)
  | _ => none

namespace Stage

variable (v : Service σ) (ledger : Ledger) (pass : Pass) (stage : Stage σ)

/-- The moments of a stage: its body is started, and calls are made. -/
def moments : List (Moment σ) :=
  ⟨stage.start, .starts pass.direction stage.migration.id⟩ ::
    (stage.calls v ledger pass).map fun made => ⟨made.1, .calls made.2⟩

private theorem calls_moments :
    (stage.moments v ledger pass).filterMap Moment.call? = stage.calls v ledger pass := by
  rw [moments, List.filterMap_cons_none rfl, List.filterMap_map]
  exact List.filterMap_some

private theorem calls_flatMap_moments (stages : List (Stage σ)) :
    (stages.flatMap (·.moments v ledger pass)).filterMap Moment.call? =
      stages.flatMap (·.calls v ledger pass) := by
  simp only [List.filterMap_flatMap, calls_moments]

/-- Writing the ledger is one call. -/
theorem log_write (now : Instant) (m : Migration) (x : σ) :
    ∃ c, v.log (pass.write ledger now m).run x = [(x, c)] := by
  cases pass with
  | apply batch => exact ⟨_, v.log_request ..⟩
  | revert =>
    refine ⟨.deleteFirst ledger.collection (.onId (.str m.id)), ?_⟩
    rw [Pass.write, Ledger.erase, v.log_attempt_bind, v.log_request, List.append_right_eq_self]
    split <;> rfl

variable {stage}

/-- A stage whose body spares the ledger leaves it as it is until its last call. -/
theorem documents_moments
    (spares : (stage.migration.body pass.direction).run.Spares ledger.collection) :
    ∀ moment ∈ stage.moments v ledger pass,
      ledger.documents (v.store moment.state) = ledger.documents (v.store stage.start) := by
  have during := Ledger.documents_log v spares stage.start
  have after : ledger.documents (v.store (stage.ran v pass).2) =
      ledger.documents (v.store stage.start) := Ledger.documents_run v spares stage.start
  have calls : ∀ made ∈ stage.calls v ledger pass,
      ledger.documents (v.store made.1) = ledger.documents (v.store stage.start) := by
    rw [Stage.calls, List.forall_mem_append]
    refine ⟨during, ?_⟩
    split
    · next y ran =>
      obtain ⟨c, log⟩ := log_write v ledger pass stage.now stage.migration y
      rw [ran] at after
      rw [log, List.forall_mem_singleton]
      exact after
    · exact List.forall_mem_nil _
  rw [moments, List.forall_mem_cons, List.forall_mem_map]
  exact ⟨rfl, calls⟩

end Stage

/-- Whether a ledger that was written by runs records what it did in a store before, but for the
identifiers of the migrations that are done. -/
structure Ledger.Moved (ledger : Ledger) (direction : Direction) (done : List Migration)
    (s t : Store) : Prop where
  written : ledger.Written t
  recorded : ∀ id, id ∈ ledger.recorded t ↔
    direction.Holds (ledger.recorded s) (done.map (·.id)) id

/-- Whether, of migrations that move in a ledger one after the other, the first have moved from one
store to a second, and no fewer of them to a third. -/
def Ledger.MovesOn (ledger : Ledger) (direction : Direction) (migrations : List Migration)
    (s t u : Store) : Prop :=
  ∃ before done, before <+: done ∧ done <+: migrations ∧
    ledger.Moved direction before s t ∧ ledger.Moved direction done s u

namespace Ledger

variable {ledger : Ledger} {direction : Direction} {m : Migration} {done : List Migration}
  {migrations : List Migration} {s t u w : Store}

theorem Moved.of_same (written : ledger.Written s)
    (same : ledger.documents t = ledger.documents s) : ledger.Moved direction [] s t where
  written := written.congr same
  recorded := by
    intro id
    rw [recorded_congr same]
    exact (Direction.holds_nil ..).symm

/-- One migration moves and then the others. -/
theorem Moved.cons
    (one : ∀ id, id ∈ ledger.recorded t ↔ direction.Holds (ledger.recorded s) [m.id] id)
    (moved : ledger.Moved direction done t u) : ledger.Moved direction (m :: done) s u where
  written := moved.written
  recorded := by
    intro id
    rw [moved.recorded, Direction.holds_cons one]
    rfl

theorem MovesOn.of_same (written : ledger.Written s)
    (first : ledger.documents t = ledger.documents s)
    (second : ledger.documents u = ledger.documents s) :
    ledger.MovesOn direction migrations s t u :=
  ⟨[], [], List.nil_prefix, List.nil_prefix, .of_same written first, .of_same written second⟩

theorem MovesOn.cons
    (one : ∀ id, id ∈ ledger.recorded t ↔ direction.Holds (ledger.recorded s) [m.id] id)
    (moves : ledger.MovesOn direction migrations t u w) :
    ledger.MovesOn direction (m :: migrations) s u w := by
  obtain ⟨before, done, more, initial, first, second⟩ := moves
  exact ⟨m :: before, m :: done, (List.prefix_cons_inj m).mpr more,
    (List.prefix_cons_inj m).mpr initial, first.cons one, second.cons one⟩

/-- Nothing has moved to the second store, and whatever it is to the third. -/
theorem MovesOn.of_left (written : ledger.Written s)
    (same : ledger.documents u = ledger.documents s)
    (moves : ledger.MovesOn direction migrations s t w) :
    ledger.MovesOn direction migrations s u w := by
  obtain ⟨-, done, -, initial, -, moved⟩ := moves
  exact ⟨[], done, List.nil_prefix, initial, .of_same written same, moved⟩

theorem MovesOn.mono {others : List Migration} (initial : migrations <+: others)
    (moves : ledger.MovesOn direction migrations s t u) :
    ledger.MovesOn direction others s t u := by
  obtain ⟨before, done, more, whole, first, second⟩ := moves
  exact ⟨before, done, more, whole.trans initial, first, second⟩

private theorem pairwise_of_same (v : Service σ) {x : σ} (written : ledger.Written (v.store x))
    {moments : List (Moment σ)} (same : ∀ moment ∈ moments,
      ledger.documents (v.store moment.state) = ledger.documents (v.store x)) :
    moments.Pairwise fun p q =>
      ledger.MovesOn direction migrations (v.store x) (v.store p.state) (v.store q.state) := by
  refine List.pairwise_of_forall_mem_list fun p first q second => ?_
  exact .of_same written (same p first) (same q second)

end Ledger

def Migrator.stages (v : Service σ) (ledger : Ledger) (pass : Pass) :
    Clock → List Migration → σ → List (Stage σ)
  | _, [], _ => []
  | clock, m :: rest, x =>
    ⟨m, clock 0, x⟩ ::
      match (Stage.mk m (clock 0) x).ended v ledger pass with
      | (.ok (), y) => stages v ledger pass (fun n => clock (n + 1)) rest y
      | (.error _, _) => []

namespace Course

variable {v : Service σ} {ledger : Ledger} {pass : Pass} {clock : Clock}
  {migrations : List Migration} {x y : σ} {stages : List (Stage σ)} {completed : List String}
  {failure : Option RunFailure}

/-- From one moment of a run to the later ones, its migrations move on in the ledger. -/
theorem movesOn (course : Course v ledger pass clock migrations x stages completed failure y)
    (spares : ∀ m ∈ migrations, (m.body pass.direction).run.Spares ledger.collection)
    (written : ledger.Written (v.store x)) :
    List.Pairwise (fun p q : Moment σ =>
        ledger.MovesOn pass.direction migrations (v.store x) (v.store p.state) (v.store q.state))
      (⟨x, .pause⟩ :: (stages.flatMap (·.moments v ledger pass) ++ [⟨y, .pause⟩])) := by
  induction course with
  | finished clock x =>
    refine Ledger.pairwise_of_same v written ?_
    simp only [List.flatMap_nil, List.nil_append, List.mem_cons, List.not_mem_nil, or_false,
      or_self, forall_eq]
  | @recorded clock m rest x y _ _ _ ended _ ih =>
    obtain ⟨body, others⟩ := List.forall_mem_cons.mp spares
    have stage : ∀ moment ∈ ⟨x, .pause⟩ :: (Stage.mk m (clock 0) x).moments v ledger pass,
        ledger.documents (v.store moment.state) = ledger.documents (v.store x) :=
      List.forall_mem_cons.mpr ⟨rfl, Stage.documents_moments v ledger pass body⟩
    obtain ⟨after, one⟩ := Stage.moved_of_ok v ledger pass body written ended
    obtain ⟨later, further⟩ := List.pairwise_cons.mp (ih others after)
    rw [List.flatMap_cons, List.append_assoc, ← List.cons_append, List.pairwise_append]
    refine ⟨Ledger.pairwise_of_same v written stage, further.imp (.cons one), ?_⟩
    intro p early q late
    exact .of_left written (stage p early) (.cons one (later q late))
  | @stopped clock m rest x _ ended =>
    obtain ⟨body, -⟩ := List.forall_mem_cons.mp spares
    refine Ledger.pairwise_of_same v written ?_
    rw [List.flatMap_singleton, List.forall_mem_cons, List.forall_mem_append,
      List.forall_mem_singleton]
    exact ⟨rfl, Stage.documents_moments v ledger pass body,
      Stage.documents_of_error v ledger pass body written ended⟩

/-- A course is the only one. -/
theorem stages_eq (course : Course v ledger pass clock migrations x stages completed failure y) :
    Migrator.stages v ledger pass clock migrations x = stages := by
  induction course with
  | finished clock x => rfl
  | recorded ended _ ih =>
    rw [Migrator.stages]
    split
    · next ran =>
      rw [ran] at ih
      rw [ih]
    · next failed =>
      rw [failed] at ended
      contradiction
  | stopped ended =>
    rw [Migrator.stages]
    split
    · next ran =>
      rw [ran] at ended
      contradiction
    · rfl

end Course

namespace Migrator

variable (v : Service σ) (migrator : Migrator) (target : RunTarget) (clock : Clock) (x : σ)

/-- The moments of a run: before it, where it reads the ledger, and those of its stages. -/
def moments : List (Moment σ) :=
  ⟨x, .pause⟩ :: ⟨x, .calls (.find migrator.ledger.collection [])⟩ ::
    match v.run migrator.ledger.entries.run x with
    | (.error _, _) => []
    | (.ok entries, y) =>
      match Plan.ofTarget migrator.registry (LedgerEntry.ids entries) target with
      | .error _ => []
      | .ok plan =>
        let pass := Pass.ofTarget entries target
        (stages v migrator.ledger pass clock plan.steps y).flatMap
          (·.moments v migrator.ledger pass)

/-- The migrations that a run is to go through by what the ledger records, none when it is
refused. -/
def planned (s : Store) : List Migration :=
  match Plan.ofTarget migrator.registry (IdSet.ofList (migrator.ledger.recorded s)) target with
  | .ok plan => plan.steps
  | .error _ => []

theorem mem_registry_of_planned {migrator : Migrator} {target : RunTarget} {s : Store}
    {m : Migration} (member : m ∈ migrator.planned target s) :
    m ∈ migrator.registry.migrations := by
  rw [planned] at member
  split at member
  · next planned => exact Plan.mem_migrations planned member
  · contradiction

/-- A run makes the calls of its moments, which are those of a course through what is planned, or
through nothing if the run fails before. -/
theorem exists_course :
    ∃ pass migrations y stages completed failure,
      pass.direction = target.direction ∧ migrations <+: migrator.planned target (v.store x) ∧
      v.store y = v.store x ∧
      Course v migrator.ledger pass clock migrations y stages completed failure
        (v.run (migrator.migrate target clock).run x).2 ∧
      migrator.moments v target clock x =
        ⟨x, .pause⟩ :: ⟨x, .calls (.find migrator.ledger.collection [])⟩ ::
          stages.flatMap (·.moments v migrator.ledger pass) ∧
      v.log (migrator.migrate target clock).run x =
        (x, .find migrator.ledger.collection []) ::
          stages.flatMap (·.calls v migrator.ledger pass) := by
  have direction (entries : List LedgerEntry) := Pass.direction_ofTarget entries target
  rw [migrate_eq, v.run_attempt_bind, v.log_attempt_bind, Ledger.log_entries, moments]
  obtain ⟨same, ids⟩ := Ledger.run_entries v migrator.ledger x
  generalize v.run migrator.ledger.entries.run x = read at same ids
  obtain ⟨result, y⟩ := read
  cases result with
  | error error =>
    exact ⟨_, [], y, [], [], none, direction [], List.nil_prefix, same, .finished clock y, rfl, rfl⟩
  | ok entries =>
    rw [planned, ← ids entries rfl]
    dsimp only
    cases Plan.ofTarget migrator.registry (LedgerEntry.ids entries) target with
    | error error =>
      exact ⟨_, [], y, [], [], none, direction [], List.nil_prefix, same, .finished clock y, rfl,
        rfl⟩
    | ok plan =>
      obtain ⟨report, stages, -, -, -, course, log⟩ :=
        run_goThrough v migrator target clock y entries plan
      refine ⟨_, plan.steps, y, stages, report.completed, report.failure, direction entries,
        List.prefix_rfl, same, course, ?_, congrArg ((x, _) :: ·) log⟩
      rw [← course.stages_eq]

/-- A run makes the calls of its moments and no others. -/
theorem log_migrate :
    v.log (migrator.migrate target clock).run x =
      (migrator.moments v target clock x).filterMap Moment.call? := by
  obtain ⟨pass, -, -, stages, -, -, -, -, -, -, moments, log⟩ :=
    migrator.exists_course v target clock x
  rw [log, moments, ← Stage.calls_flatMap_moments]
  rfl

/-- A body that is started in a run is that of a migration that is planned, in its direction. -/
theorem mem_planned_of_starts {direction : Direction} {id : String} {moment : Moment σ}
    (member : moment ∈ migrator.moments v target clock x)
    (starts : moment.event = .starts direction id) :
    direction = target.direction ∧ ∃ m ∈ migrator.planned target (v.store x), m.id = id := by
  obtain ⟨pass, migrations, y, stages, _, _, way, initial, -, course, moments, -⟩ :=
    migrator.exists_course v target clock x
  have here : moment ∈ stages.flatMap (·.moments v migrator.ledger pass) := by
    rw [moments] at member
    obtain rfl | rfl | member := List.mem_cons.mp member |>.imp_right List.mem_cons.mp
    · contradiction
    · contradiction
    · exact member
  obtain ⟨stage, inside, member⟩ := List.mem_flatMap.mp here
  obtain rfl | called := List.mem_cons.mp member
  · cases starts
    exact ⟨way, stage.migration, initial.subset (course.mem_migrations inside), rfl⟩
  · obtain ⟨made, -, rfl⟩ := List.mem_map.mp called
    contradiction

variable {x}

/-- From one moment of a run to the later ones, the planned migrations move on in the ledger. -/
theorem movesOn_moments (written : migrator.ledger.Written (v.store x))
    (spares : migrator.registry.Spares migrator.ledger.collection) :
    List.Pairwise (fun p q : Moment σ =>
        migrator.ledger.MovesOn target.direction (migrator.planned target (v.store x)) (v.store x)
          (v.store p.state) (v.store q.state))
      (migrator.moments v target clock x ++
        [⟨(v.run (migrator.migrate target clock).run x).2, .pause⟩]) := by
  obtain ⟨pass, migrations, y, stages, _, _, way, initial, same, course, moments, -⟩ :=
    migrator.exists_course v target clock x
  have bodies : ∀ m ∈ migrations, (m.body pass.direction).run.Spares migrator.ledger.collection :=
    fun m member => spares m (mem_registry_of_planned (initial.subset member)) _
  have moves := course.movesOn bodies (same ▸ written)
  rw [same, way, List.pairwise_cons, same] at moves
  obtain ⟨later, further⟩ := moves
  have start : migrator.ledger.MovesOn target.direction migrations (v.store x) (v.store x)
      (v.store x) := .of_same written rfl rfl
  rw [moments, List.cons_append, List.cons_append]
  refine List.Pairwise.imp (.mono initial) (List.pairwise_cons.mpr
    ⟨List.forall_mem_cons.mpr ⟨start, later⟩, List.pairwise_cons.mpr ⟨later, further⟩⟩)

/-- At every moment of a run, first migrations of the planned ones have moved in the ledger. -/
theorem moved_moments (written : migrator.ledger.Written (v.store x))
    (spares : migrator.registry.Spares migrator.ledger.collection) :
    ∀ moment ∈ migrator.moments v target clock x ++
        [⟨(v.run (migrator.migrate target clock).run x).2, .pause⟩],
      ∃ done, done <+: migrator.planned target (v.store x) ∧
        migrator.ledger.Moved target.direction done (v.store x) (v.store moment.state) := by
  have moves := migrator.movesOn_moments v target clock written spares
  rw [moments, List.cons_append, List.pairwise_cons] at moves
  intro moment member
  obtain rfl | later := List.mem_cons.mp member
  · exact ⟨[], List.nil_prefix, .of_same written rfl⟩
  · obtain ⟨_, done, -, initial, -, moved⟩ := moves.1 moment later
    exact ⟨done, initial, moved⟩

theorem written_run (written : migrator.ledger.Written (v.store x))
    (spares : migrator.registry.Spares migrator.ledger.collection) :
    migrator.ledger.Written (v.store (v.run (migrator.migrate target clock).run x).2) := by
  have last := List.mem_append_right (migrator.moments v target clock x)
    (List.mem_singleton_self ⟨(v.run (migrator.migrate target clock).run x).2, Event.pause⟩)
  obtain ⟨done, -, moved⟩ := migrator.moved_moments v target clock written spares _ last
  exact moved.written

variable (x)

/-- The moments of runs, one after the other. -/
def trace : List (RunTarget × Clock) → σ → List (Moment σ)
  | [], x => [⟨x, .pause⟩]
  | (target, clock) :: runs, x =>
    migrator.moments v target clock x ++ trace runs (v.run (migrator.migrate target clock).run x).2

/-- The state that runs leave, one after the other. -/
def after (runs : List (RunTarget × Clock)) : σ :=
  runs.foldl (fun x run => (v.run (migrator.migrate run.1 run.2).run x).2) x

theorem head?_trace (runs : List (RunTarget × Clock)) :
    (migrator.trace v runs x).head? = some ⟨x, .pause⟩ := by
  cases runs <;> rfl

/-- A trace ends in the state that its runs leave. -/
theorem getLast?_trace (runs : List (RunTarget × Clock)) :
    (migrator.trace v runs x).getLast? = some ⟨migrator.after v x runs, .pause⟩ := by
  induction runs generalizing x with
  | nil => rfl
  | cons run runs ih =>
    rw [trace, List.getLast?_append, ih, Option.some_or]
    rfl

variable {v migrator} (kept : σ → Prop)

/-- What holds at all moments of a run, when something is kept until it begins, holds at all moments
of a trace. -/
theorem forall_trace {holds : Moment σ → Prop} (runs : List (RunTarget × Clock)) {x : σ}
    (held : kept x) (pause : ∀ x, kept x → holds ⟨x, .pause⟩)
    (run : ∀ target clock x, kept x → kept (v.run (migrator.migrate target clock).run x).2 ∧
      ∀ moment ∈ migrator.moments v target clock x, holds moment) :
    ∀ moment ∈ migrator.trace v runs x, holds moment := by
  induction runs generalizing x with
  | nil => exact List.forall_mem_singleton.mpr (pause x held)
  | cons first runs ih =>
    obtain ⟨next, here⟩ := run first.1 first.2 x held
    exact List.forall_mem_append.mpr ⟨here, ih next⟩

/-- What holds between the moments of a run, when something is kept until it begins, and can be
composed, holds between the moments of a trace. -/
theorem pairwise_trace {r : Moment σ → Moment σ → Prop} (runs : List (RunTarget × Clock)) {x : σ}
    (held : kept x) (trans : ∀ {p q w}, r p q → r q w → r p w)
    (run : ∀ target clock x, kept x → kept (v.run (migrator.migrate target clock).run x).2 ∧
      List.Pairwise r (migrator.moments v target clock x ++
        [⟨(v.run (migrator.migrate target clock).run x).2, .pause⟩])) :
    (migrator.trace v runs x).Pairwise r := by
  have : Trans r r r := ⟨trans⟩
  rw [← List.isChain_iff_pairwise]
  induction runs generalizing x with
  | nil => exact .singleton _
  | cons first runs ih =>
    -- The last moment of the run is the first of the rest of the trace.
    obtain ⟨next, here⟩ := run first.1 first.2 x held
    have later := ih next
    obtain ⟨rest, whole⟩ := List.head?_eq_some_iff.mp (migrator.head?_trace v _ runs)
    rw [trace, whole, ← List.singleton_append, ← List.append_assoc]
    rw [whole, ← List.singleton_append] at later
    exact .append_overlap here.isChain later (List.cons_ne_nil _ _)

end Migrator

end Stepwise
