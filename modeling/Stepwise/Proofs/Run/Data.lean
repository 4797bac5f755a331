import Stepwise.Proofs.Run.Course

/-!
# What migrations make of the data

The data are all collections but the ledger. A body that succeeds turns data into other data, and a
list of migrations builds data when its bodies, run up in order, turn the first into the last.
Bodies that bring all identifying values build the same from the same data (`Migration.run_runAll`);
as the store gives out a new value every time, other bodies may do so in several ways.
-/

namespace Stepwise

namespace Ledger

/-- All collections but the ledger. -/
def data (ledger : Ledger) (s : Store) : SortedMap Collection :=
  s.collections.erase ledger.collection

variable {ledger : Ledger} {s t : Store}

theorem get?_data (ledger : Ledger) (s : Store) (name : String) :
    (ledger.data s).get? name =
      if ledger.collection = name then none else s.collections.get? name :=
  SortedMap.get?_erase ..

/-- The data of two stores are the same when the stores agree on all collections but the ledger. -/
theorem data_eq_iff : ledger.data s = ledger.data t ↔
    ∀ name, name ≠ ledger.collection → s.collections.get? name = t.collections.get? name := by
  constructor
  · intro same name other
    have here : (ledger.data s).get? name = (ledger.data t).get? name := by rw [same]
    rwa [get?_data, get?_data, if_neg (Ne.symm other), if_neg (Ne.symm other)] at here
  · intro same
    apply SortedMap.ext_get?
    intro name
    rw [get?_data, get?_data]
    split
    · rfl
    · next other => exact same name (Ne.symm other)

/-- Writing the ledger leaves the data as they are. -/
theorem data_run_write {σ : Type} (v : Service σ) (ledger : Ledger) (pass : Pass) (now : Instant)
    (m : Migration) (x : σ) :
    ledger.data (v.store (v.run (pass.write ledger now m).run x).2) = ledger.data (v.store x) := by
  refine data_eq_iff.mpr fun name other => (v.get?_run ?_ x).1
  exact Migrator.calls_write ⟨nofun, fun _ _ => Ne.symm other, fun _ _ => Ne.symm other⟩ pass now m

end Ledger

namespace Migration

variable {ledger : Ledger}

/-- Whether a body, run on some store with the first data, succeeds and leaves the second. -/
def Turns (ledger : Ledger) (direction : Direction) (m : Migration)
    (before after : SortedMap Collection) : Prop :=
  ∃ s t, ledger.data s = before ∧ (m.body direction).run.run s = (.ok (), t) ∧
    ledger.data t = after

/-- Whether running down undoes what running up does to the data. -/
def Undone (ledger : Ledger) (m : Migration) : Prop :=
  ∀ before after, m.Turns ledger .up before after → ∀ s, ledger.data s = after →
    ∃ t, (m.body .down).run.run s = (.ok (), t) ∧ ledger.data t = before

/-- Whether migrations, run up in order, turn the first data into the second. -/
def Build (ledger : Ledger) :
    List Migration → SortedMap Collection → SortedMap Collection → Prop
  | [], before, after => before = after
  | m :: rest, before, after =>
    ∃ middle, m.Turns ledger .up before middle ∧ Build ledger rest middle after

private theorem build_append {first second : List Migration} {before after : SortedMap Collection} :
    Build ledger (first ++ second) before after ↔
      ∃ middle, Build ledger first before middle ∧ Build ledger second middle after := by
  induction first generalizing before with
  | nil =>
    constructor
    · intro built
      exact ⟨before, rfl, built⟩
    · rintro ⟨_, rfl, built⟩
      exact built
  | cons m rest ih =>
    simp only [List.cons_append, Build, ih]
    constructor
    · rintro ⟨start, turns, middle, built, others⟩
      exact ⟨middle, ⟨start, turns, built⟩, others⟩
    · rintro ⟨middle, ⟨start, turns, built⟩, others⟩
      exact ⟨start, turns, middle, built, others⟩

private theorem build_concat {migrations : List Migration} {m : Migration}
    {before after : SortedMap Collection} :
    Build ledger (migrations ++ [m]) before after ↔
      ∃ middle, Build ledger migrations before middle ∧ m.Turns ledger .up middle after := by
  simp only [build_append, Build, exists_eq_right]

/-- A body that keeps to the data and brings all identifying values turns them the same way on every
store that has them. -/
theorem Turns.run {direction : Direction} {m : Migration} {before after : SortedMap Collection}
    (turns : m.Turns ledger direction before after)
    (avoids : (m.body direction).run.Avoids ledger.collection)
    (identified : (m.body direction).run.Identified) {s : Store} (same : ledger.data s = before) :
    ∃ t, (m.body direction).run.run s = (.ok (), t) ∧ ledger.data t = after := by
  obtain ⟨first, last, start, ran, finish⟩ := turns
  have agree : Store.Agree (· ≠ ledger.collection) False first s :=
    ⟨Ledger.data_eq_iff.mp (start.trans same.symm), False.elim⟩
  have kinds : (m.body direction).run.Calls fun c =>
      c.Within (· ≠ ledger.collection) ∧ (False ∨ c.Identified) :=
    (avoids.and identified).mono fun c kind => ⟨kind.1, .inr kind.2⟩
  obtain ⟨results, stores⟩ := kinds.agree_run agree
  rw [ran] at results stores
  refine ⟨((m.body direction).run.run s).2, Prod.ext results.symm rfl, ?_⟩
  rw [← finish]
  exact (Ledger.data_eq_iff.mpr stores.get?).symm

/-- Run the bodies of migrations, one after the other, until one fails. -/
def runAll (direction : Direction) : List Migration → Body
  | [] => return ()
  | m :: rest => do
    m.body direction
    runAll direction rest

/-- Bodies that keep to the data and bring all identifying values build the same on every store with
the data. -/
theorem run_runAll {migrations : List Migration} {before after : SortedMap Collection}
    (built : Build ledger migrations before after)
    (avoids : ∀ m ∈ migrations, (m.body .up).run.Avoids ledger.collection)
    (identified : ∀ m ∈ migrations, (m.body .up).run.Identified)
    {s : Store} (same : ledger.data s = before) :
    ∃ t, (runAll .up migrations).run.run s = (.ok (), t) ∧ ledger.data t = after := by
  induction migrations generalizing before s with
  | nil => exact ⟨s, rfl, same.trans built⟩
  | cons m rest ih =>
    obtain ⟨middle, turns, others⟩ := built
    obtain ⟨avoid, avoids⟩ := List.forall_mem_cons.mp avoids
    obtain ⟨own, identified⟩ := List.forall_mem_cons.mp identified
    obtain ⟨t, first, reached⟩ := turns.run avoid own same
    obtain ⟨last, ran, finish⟩ := ih others avoids identified reached
    refine ⟨last, ?_, finish⟩
    have step := Service.plain.run_attempt_bind (m.body .up) (fun _ => runAll .up rest) s
    rw [show Service.plain.run (m.body .up).run s = (.ok (), t) from first] at step
    exact step.trans ran

private theorem run_creating (id name : String) (s : Store) :
    ((Definition.creating id name).toMigration.body .up).run.run s = s.createCollection name := by
  show Service.plain.run (Operation.bodyAll [.createCollection name]).run s = _
  rw [Operation.bodyAll, Operation.body, Operation.attempt, Service.run_attempt_bind,
    Service.run_attempt_bind, Service.run_request]
  show _ = s.perform (.createCollection name)
  simp only [Service.plain]
  obtain ⟨answer, t⟩ := s.perform (.createCollection name)
  cases answer <;> rfl

/-- Dropping a collection undoes its creation. -/
theorem undone_creating (id name : String) :
    (Definition.creating id name).toMigration.Undone ledger := by
  rintro before after ⟨s, t, rfl, ran, rfl⟩ other same
  rw [run_creating, Store.createCollection] at ran
  split at ran
  · cases congrArg Prod.fst ran
  · next absent =>
    cases ran
    refine ⟨(other.dropCollection name).2, rfl, Ledger.data_eq_iff.mpr fun third apart => ?_⟩
    have here := Ledger.data_eq_iff.mp same third apart
    simp only [Store.dropCollection, Store.counted, SortedMap.get?_erase, here, Store.get?_put]
    split
    · next named =>
      simp only [Bool.not_eq_true, SortedMap.contains, Option.isSome_eq_false_iff,
        Option.isNone_iff_eq_none] at absent
      rw [← named]
      exact absent.symm
    · rfl

end Migration

/-- A stage that succeeds leaves the data that its body leaves. -/
theorem Stage.data_ended {stage : Stage Store} {ledger : Ledger} {pass : Pass}
    (ok : (stage.ended .plain ledger pass).1 = .ok ()) :
    ∃ t, (stage.migration.body pass.direction).run.run stage.start = (.ok (), t) ∧
      ledger.data (stage.ended .plain ledger pass).2 = ledger.data t := by
  obtain ⟨ran, ended⟩ := Stage.ended_of_ok .plain ledger pass ok
  refine ⟨(stage.ran .plain pass).2, Prod.ext ran rfl, ?_⟩
  rw [ended]
  exact Ledger.data_run_write .plain ledger pass stage.now stage.migration _

namespace Course

variable {ledger : Ledger} {pass : Pass} {clock : Clock} {migrations done : List Migration}
  {x y : Store} {stages : List (Stage Store)} {completed : List String}
  {failure : Option RunFailure} {start : SortedMap Collection}

/-- A run up that does not fail builds on what was built. -/
theorem build (course : Course .plain ledger pass clock migrations x stages completed failure y)
    (up : pass.direction = .up) (success : failure = none)
    (built : Migration.Build ledger done start (ledger.data x)) :
    Migration.Build ledger (done ++ migrations) start (ledger.data y) := by
  induction course generalizing done with
  | finished clock x => rwa [List.append_nil]
  | @recorded clock m rest x _ _ _ _ ended _ ih =>
    obtain ⟨t, ran, data⟩ := Stage.data_ended ended
    rw [up] at ran
    have first : Migration.Build ledger (done ++ [m]) start (ledger.data t) :=
      Migration.build_concat.mpr ⟨_, built, x, t, rfl, ran, rfl⟩
    rw [← data] at first
    have more := ih success first
    rwa [List.append_assoc] at more
  | stopped _ => contradiction

/-- A run down that does not fail takes away what was built last. -/
theorem unbuild (course : Course .plain ledger pass clock migrations x stages completed failure y)
    (down : pass.direction = .down) (success : failure = none)
    (undone : ∀ m ∈ migrations, m.Undone ledger)
    (built : Migration.Build ledger (done ++ migrations.reverse) start (ledger.data x)) :
    Migration.Build ledger done start (ledger.data y) := by
  induction course with
  | finished clock x => rwa [List.reverse_nil, List.append_nil] at built
  | @recorded clock m rest x _ _ _ _ ended _ ih =>
    rw [List.reverse_cons, ← List.append_assoc, Migration.build_concat] at built
    obtain ⟨middle, built, turns⟩ := built
    obtain ⟨undo, others⟩ := List.forall_mem_cons.mp undone
    obtain ⟨t, ran, data⟩ := Stage.data_ended ended
    obtain ⟨u, back, restored⟩ := undo middle _ turns x rfl
    rw [down] at ran
    have same : t = u := congrArg Prod.snd (ran.symm.trans back)
    refine ih success others ?_
    rwa [data, same, restored]
  | stopped _ => contradiction

end Course

end Stepwise
