import Mathlib.Data.List.Nodup
import Mathlib.Data.List.Pairwise
import Mathlib.Data.List.Perm.Subperm
import Stepwise.Proofs.Ledger.Key
import Stepwise.Proofs.Script.Interleaving

/-!
# Runs up without a lock

Runs up that take turns on one store, without a lock, may all have planned the same migrations. None
is recorded twice all the same: recording is one call, and refused if the identifier is taken
(`Rival.recorded_once`). `Rival.Stands` says what can be left of a run, given what it planned and
what it recorded; `Rivals` is the invariant of all runs together, which every turn keeps.
-/

namespace Stepwise

/-- Members of a list that are taken to the same are the same if nothing is taken there twice. -/
theorem List.eq_of_nodup_filterMap {α β : Type} {f : α → Option β} {items : List α}
    (nodup : (items.filterMap f).Nodup) {a b : α} {image : β} (first : a ∈ items)
    (second : b ∈ items) (ofFirst : f a = some image) (ofSecond : f b = some image) : a = b := by
  let Apart (x y : α) : Prop := ∀ c, f x = some c → ∀ d, f y = some d → c ≠ d
  have symm : Std.Symm Apart := ⟨fun x y apart c image d other => (apart d other c image).symm⟩
  have pairwise : items.Pairwise Apart := List.pairwise_filterMap.mp nodup
  by_contra different
  exact pairwise.forall first second different image ofFirst image ofSecond rfl

/-- The beginning of a list that goes as far as a member, and not beyond. -/
theorem List.eq_of_isPrefix_of_not_mem {α : Type} {start first last : List α} {a : α}
    (nodup : (first ++ a :: last).Nodup) (begun : start <+: first ++ a :: last)
    (reached : first ⊆ start) (without : a ∉ start) : start = first := by
  obtain shorter | longer := List.prefix_or_prefix_of_prefix begun (List.prefix_append first _)
  · exact shorter.eq_of_length_le ((List.Nodup.of_append_left nodup).subperm reached).length_le
  · obtain ⟨more, rfl⟩ := longer
    rw [List.prefix_append_right_inj] at begun
    cases more with
    | nil => exact List.append_nil first
    | cons b more =>
      obtain ⟨rfl, -⟩ := List.cons_prefix_cons.mp begun
      exact absurd (List.mem_append_right _ List.mem_cons_self) without

private theorem List.filterMap_concat {α β : Type} (f : α → Option β) (items : List α) (last : α) :
    (items ++ [last]).filterMap f = items.filterMap f ++ (f last).toList := by
  rw [List.filterMap_append, List.filterMap_cons]
  cases f last <;> rfl

variable {ι : Type} {ledger : Ledger}

/-- The identifier that a turn records in the ledger. -/
def Turn.recorded? (ledger : Ledger) (turn : Turn ι) : Option String :=
  match turn.call with
  | .insert collection document =>
    if collection = ledger.collection ∧ turn.answer.isOk then LedgerEntry.recordedId? document
    else none
  | _ => none

/-- A turn that writes to other collections records nothing. -/
theorem Turn.recorded?_of_spared {turn : Turn ι}
    (spared : turn.call.isWrite = true → turn.call.collection ≠ ledger.collection) :
    turn.recorded? ledger = none := by
  rw [recorded?]
  split
  · next collection document call =>
    rw [call] at spared
    exact if_neg fun own => spared rfl own.1
  · rfl

/-- A run up that takes turns with others. -/
structure Rival where
  registry : Registry
  target : UpTarget
  clock : Clock

namespace Rival

def script (ledger : Ledger) (x : Rival) : Script (Except MigrationError RunReport) :=
  ((⟨x.registry, ledger⟩ : Migrator).up x.target x.clock).run

/-- The plan that a run makes if it finds the store. -/
def plan (ledger : Ledger) (x : Rival) (s : Store) : Except MigrationError Plan :=
  (((⟨x.registry, ledger⟩ : Migrator).planUp x.target).run.run s).1

/-- A run that has come to its report. -/
def ended (batch : Option Int) (completed : List String) (failure : Option RunFailure) :
    Script (Except MigrationError RunReport) :=
  .done (.ok { direction := .up, batch, completed, failure })

/-- What is left of a run that has completed some migrations and goes through others. -/
def remaining (ledger : Ledger) (batch : Int) (clock : Clock) (done : List String)
    (migrations : List Migration) : Script (Except MigrationError RunReport) := do
  let (completed, failure) ← Migrator.steps ledger (.apply batch) clock migrations
  ended (some batch) (done ++ completed) failure

/-- What is left of a run when the body of a migration has a result. -/
def recording (ledger : Ledger) (batch : Int) (clock : Clock) (done : List String) (m : Migration)
    (rest : List Migration) : Except StoreError Unit → Script (Except MigrationError RunReport)
  | .error cause => ended (some batch) done (some ⟨m.id, .up, .step m.id .up cause⟩)
  | .ok () => .call (.insert ledger.collection (LedgerEntry.document ⟨m.id, clock 0, batch⟩)) fun
    | .error cause => ended (some batch) done (some ⟨m.id, .up, Ledger.refusal m.id cause⟩)
    | .ok () => remaining ledger batch (fun n => clock (n + 1)) (done ++ [m.id]) rest

/-- What is left of a run that has read the ledger and planned. -/
def goThrough (ledger : Ledger) (x : Rival) (entries : List LedgerEntry) :
    Except MigrationError Plan → Script (Except MigrationError RunReport)
  | .error reason => .done (.error reason)
  | .ok plan =>
    if plan.steps.isEmpty then ended none [] none
    else remaining ledger (LedgerEntry.latestBatch entries + 1) x.clock [] plan.steps

theorem remaining_nil (ledger : Ledger) (batch : Int) (clock : Clock) (done : List String) :
    remaining ledger batch clock done [] = ended (some batch) done none :=
  congrArg (ended (some batch) · none) (List.append_nil done)

theorem remaining_cons (ledger : Ledger) (batch : Int) (clock : Clock) (done : List String)
    (m : Migration) (rest : List Migration) :
    remaining ledger batch clock done (m :: rest) =
      (m.body .up).run >>= recording ledger batch clock done m rest := by
  rw [remaining, Migrator.steps, Migrator.step_eq, ExceptT.run_bind, ExceptT.run_adapt,
    map_eq_pure_bind]
  simp only [bind_assoc, pure_bind]
  refine bind_congr fun result => ?_
  cases result with
  | error cause => exact congrArg (ended (some batch) · _) (List.append_nil done)
  | ok _ =>
    refine congrArg (Script.call _) (funext fun answer => ?_)
    cases answer with
    | error cause => exact congrArg (ended (some batch) · _) (List.append_nil done)
    | ok _ =>
      change (Migrator.steps ledger _ _ rest >>= _) >>= _ = _
      rw [bind_assoc, remaining]
      refine bind_congr fun outcome => ?_
      exact congrArg (ended (some batch) · _) (List.append_cons ..)

/-- A run reads the ledger, plans, and goes through the plan. -/
theorem script_eq (ledger : Ledger) (x : Rival) :
    x.script ledger = .call (.find ledger.collection []) fun
      | .error cause => .done (.error (.ledger cause))
      | .ok documents =>
        match LedgerEntry.ofDocuments documents with
        | .error cause => .done (.error (.ledger cause))
        | .ok entries =>
          x.goThrough ledger entries (Plan.up x.registry (LedgerEntry.ids entries) x.target) := by
  refine (Ledger.run_entries_bind ledger _).trans (congrArg (Script.call _) ?_)
  funext answer
  cases answer with
  | error cause => rfl
  | ok documents =>
    dsimp only
    cases LedgerEntry.ofDocuments documents with
    | error cause => rfl
    | ok entries =>
      dsimp only
      cases Plan.up x.registry (LedgerEntry.ids entries) x.target with
      | error reason => rfl
      | ok plan =>
        change ExceptT.run (if plan.steps.isEmpty then _ else _) = _
        rw [goThrough]
        split
        · rfl
        · rw [ExceptT.run_lift, map_eq_pure_bind, Migrator.execute, bind_assoc]
          rfl

private theorem plan_eq (ledger : Ledger) (x : Rival) (s : Store) :
    x.plan ledger s = match LedgerEntry.ofDocuments (ledger.documents s) with
      | .error cause => .error (.ledger cause)
      | .ok entries => Plan.up x.registry (LedgerEntry.ids entries) x.target := by
  rw [plan, Migrator.planUp, Ledger.ids, bind_assoc, Ledger.run_entries_bind, Script.run,
    Script.runWith, Store.perform, Store.find_all, ← Ledger.documents]
  dsimp only
  cases LedgerEntry.ofDocuments (ledger.documents s) with
  | error cause => rfl
  | ok entries => rfl

/-- A run plans nothing twice, and only migrations of its registry. -/
theorem plan_ok {x : Rival} {s : Store} {plan : Plan} (planned : x.plan ledger s = .ok plan) :
    plan.ids.Nodup ∧ ∀ m ∈ plan.steps, m ∈ x.registry.migrations := by
  rw [plan_eq] at planned
  split at planned
  · contradiction
  · next entries _ =>
    obtain ⟨limit, steps⟩ := Plan.steps_up planned
    have part : plan.steps.Sublist x.registry.migrations := by
      rw [steps]
      exact List.filter_sublist
    exact ⟨x.registry.nodup_ids.sublist (part.map _), fun m member => part.subset member⟩

/-- What can stop a run at a migration of its plan: the migration is recorded, or its body fails. -/
def Obstacle (id : String) (error : MigrationError) : Prop :=
  error = .duplicateApply id ∨ ∃ cause, error = .step id .up cause

/-- What can be left of a run, given what it planned and what it recorded. -/
inductive Stands (ledger : Ledger) (x : Rival) : Option (Except MigrationError Plan) →
    List String → Script (Except MigrationError RunReport) → Prop
  | outside : Stands ledger x none [] (x.script ledger)
  | refused (reason : MigrationError) :
      Stands ledger x (some (.error reason)) [] (.done (.error reason))
  /-- The body of `m` is under way, and then come the migrations of `rest`. -/
  | working {plan : Plan} {batch : Int} {clock : Clock} {done : List String} {m : Migration}
      {rest : List Migration} {body : Script (Except StoreError Unit)} :
      body.Spares ledger.collection →
      (∀ n ∈ rest, (n.body .up).run.Spares ledger.collection) →
      plan.ids = done ++ m.id :: rest.map (·.id) →
      Stands ledger x (some (.ok plan)) done (body >>= recording ledger batch clock done m rest)
  | halted {plan : Plan} {batch : Option Int} {done last : List String} {id : String}
      {error : MigrationError} :
      plan.ids = done ++ id :: last → Obstacle id error →
      Stands ledger x (some (.ok plan)) done (ended batch done (some ⟨id, .up, error⟩))
  | finished {plan : Plan} {batch : Option Int} {done : List String} :
      plan.ids = done → Stands ledger x (some (.ok plan)) done (ended batch done none)

variable {x : Rival}

private theorem stands_remaining {plan : Plan} {done : List String} {migrations : List Migration}
    (spares : ∀ m ∈ migrations, (m.body .up).run.Spares ledger.collection)
    (ids : plan.ids = done ++ migrations.map (·.id)) (batch : Int) (clock : Clock) :
    Stands ledger x (some (.ok plan)) done (remaining ledger batch clock done migrations) := by
  cases migrations with
  | nil =>
    rw [remaining_nil]
    exact .finished (ids.trans (List.append_nil done))
  | cons m rest =>
    obtain ⟨body, others⟩ := List.forall_mem_cons.mp spares
    rw [remaining_cons]
    exact .working body others ids

private theorem stands_goThrough (spares : x.registry.Spares ledger.collection) (s : Store)
    (entries : List LedgerEntry) :
    Stands ledger x (some (x.plan ledger s)) [] (x.goThrough ledger entries (x.plan ledger s)) := by
  cases made : x.plan ledger s with
  | error reason => exact .refused reason
  | ok plan =>
    rw [goThrough]
    split
    · next empty => exact .finished (congrArg (List.map _) (List.isEmpty_iff.mp empty))
    · exact stands_remaining (fun m member => spares m ((plan_ok made).2 m member) .up) rfl _ _

/-- What a turn of a run comes to, given what the run planned and recorded before and what is left
of it after: the ledger has what it had and what the turn records, and the run stands there. -/
structure Advances (ledger : Ledger) (x : Rival) (planned : Option (Except MigrationError Plan))
    (moved : List String) (turn : Turn ι) (left : Script (Except MigrationError RunReport)) :
    Prop where
  written : ledger.Written turn.after
  recorded : ledger.recorded turn.after =
    ledger.recorded turn.before ++ (turn.recorded? ledger).toList
  stands : Stands ledger x (some (planned.getD (x.plan ledger turn.before)))
    (moved ++ (turn.recorded? ledger).toList) left

variable {now : Store} {c : Call} {planned : Option (Except MigrationError Plan)}
  {moved : List String}
  {next : Except StoreError c.Answer → Script (Except MigrationError RunReport)}

/-- A call that does not write to the ledger records nothing. -/
theorem advances_of_spared {turn : Turn ι} {left : Script (Except MigrationError RunReport)}
    (written : ledger.Written turn.before)
    (spared : turn.call.isWrite = true → turn.call.collection ≠ ledger.collection)
    (stands : Stands ledger x (some (planned.getD (x.plan ledger turn.before))) moved left) :
    Advances ledger x planned moved turn left := by
  have same : ledger.documents turn.after = ledger.documents turn.before :=
    congrArg Collection.documents (turn.before.collection_perform_of_spared spared)
  constructor
  · exact written.congr same
  · rw [Turn.recorded?_of_spared spared, Option.toList_none, List.append_nil]
    exact Ledger.recorded_congr same
  · rwa [Turn.recorded?_of_spared spared, Option.toList_none, List.append_nil]

/-- A run plans at its first turn. -/
theorem advances_reading (written : ledger.Written now)
    (spares : x.registry.Spares ledger.collection) (begun : x.script ledger = .call c next)
    (i : ι) : Advances ledger x none [] ⟨i, c, now⟩ (next (now.perform c).1) := by
  rw [script_eq] at begun
  cases begun
  refine advances_of_spared written nofun ?_
  have answer : (now.perform (.find ledger.collection [])).1 = .ok (ledger.documents now) :=
    congrArg Prod.fst (now.find_all ledger.collection)
  have planned := x.plan_eq ledger now
  rw [answer, Option.getD_none]
  dsimp only
  cases read : LedgerEntry.ofDocuments (ledger.documents now) with
  | error cause =>
    rw [read] at planned
    rw [planned]
    exact .refused _
  | ok entries =>
    rw [read] at planned
    dsimp only at planned ⊢
    rw [← planned]
    exact stands_goThrough spares now entries

/-- A run that records a migration goes on if that is not refused. -/
theorem advances_recording {plan : Plan} {batch : Int} {clock : Clock} {done : List String}
    {m : Migration} {rest : List Migration} (written : ledger.Written now)
    (others : ∀ n ∈ rest, (n.body .up).run.Spares ledger.collection)
    (ids : plan.ids = done ++ m.id :: rest.map (·.id))
    (call : recording ledger batch clock done m rest (.ok ()) = .call c next) (i : ι) :
    Advances ledger x (some (.ok plan)) done ⟨i, c, now⟩ (next (now.perform c).1) := by
  cases call
  let turn : Turn ι := ⟨i, .insert ledger.collection (LedgerEntry.document ⟨m.id, clock 0, batch⟩),
    now⟩
  obtain ⟨t, added, still, recorded⟩ | ⟨key, refused⟩ :=
    written.perform_record ⟨m.id, clock 0, batch⟩
  · have records : turn.recorded? ledger = some m.id := by
      refine (if_pos ⟨rfl, ?_⟩).trans rfl
      rw [Turn.answer, added]
      rfl
    constructor
    · rwa [Turn.after, added]
    · rw [records, Turn.after, added]
      exact recorded
    · rw [records, added]
      refine stands_remaining others ?_ _ _
      rw [ids, List.append_assoc]
      rfl
  · have records : turn.recorded? ledger = none := by
      refine if_neg fun taken => ?_
      rw [Turn.answer, refused] at taken
      exact Bool.false_ne_true taken.2
    constructor
    · rw [Turn.after, refused]
      exact written
    · rw [records, Turn.after, refused, Option.toList_none, List.append_nil]
      rfl
    · rw [records, refused, Option.toList_none, List.append_nil]
      exact .halted ids (.inl rfl)

/-- At its turn, a run plans, works on a body, or records the next migration of its plan. -/
theorem Stands.turn {script : Script (Except MigrationError RunReport)}
    (stands : Stands ledger x planned moved script) (call : script = .call c next)
    (written : ledger.Written now) (spares : x.registry.Spares ledger.collection) (i : ι) :
    Advances ledger x planned moved ⟨i, c, now⟩ (next (now.perform c).1) := by
  cases stands with
  | outside => exact advances_reading written spares call i
  | refused reason => contradiction
  | @working plan batch clock done m rest body bodySpares others ids =>
    cases body with
    | call own after =>
      cases call
      exact advances_of_spared written bodySpares.1 (.working (bodySpares.2 _) others ids)
    | done result =>
      cases result with
      | error cause => contradiction
      | ok _ => exact advances_recording written others ids call i
  | halted _ _ => contradiction
  | finished _ => contradiction

/-- A run records the beginning of its plan. -/
theorem Stands.isPrefix {plan : Plan} {script : Script (Except MigrationError RunReport)}
    (stands : Stands ledger x (some (.ok plan)) moved script) : moved <+: plan.ids := by
  cases stands with
  | working _ _ ids => exact ⟨_, ids.symm⟩
  | halted ids _ => exact ⟨_, ids.symm⟩
  | finished ids => exact ⟨[], (List.append_nil _).trans ids.symm⟩

/-- The identifiers that a run completes, by its result. -/
def completed : Except MigrationError RunReport → List String
  | .ok report => report.completed
  | .error _ => []

/-- A run that is done has reported what it recorded, and what it planned is either all recorded or
was given up at the next migration. -/
theorem Stands.of_done {result : Except MigrationError RunReport}
    (stands : Stands ledger x planned moved (.done result)) :
    completed result = moved ∧ ∀ plan, planned = some (.ok plan) →
      plan.ids = moved ∨ ∃ id last error, plan.ids = moved ++ id :: last ∧ Obstacle id error ∧
        ∃ batch, result = .ok ⟨.up, batch, moved, some ⟨id, .up, error⟩⟩ := by
  generalize left : Script.done result = script at stands
  cases stands with
  | outside =>
    rw [script_eq] at left
    contradiction
  | refused reason =>
    cases left
    exact ⟨rfl, nofun⟩
  | @working plan batch clock done m rest body _ _ ids =>
    -- Only a body that has failed leaves nothing to do.
    cases body with
    | call own after => contradiction
    | done outcome =>
      cases outcome with
      | ok _ => contradiction
      | error cause =>
        cases left
        refine ⟨rfl, ?_⟩
        rintro _ ⟨⟩
        exact .inr ⟨_, _, _, ids, .inr ⟨cause, rfl⟩, _, rfl⟩
  | halted ids reason =>
    cases left
    refine ⟨rfl, ?_⟩
    rintro _ ⟨⟩
    exact .inr ⟨_, _, _, ids, reason, _, rfl⟩
  | finished ids =>
    cases left
    refine ⟨rfl, ?_⟩
    rintro _ ⟨⟩
    exact .inl ids

variable [DecidableEq ι]

/-- What a run planned, if it has begun. -/
def planned? (ledger : Ledger) (runs : ι → Rival) (turns : List (Turn ι)) (i : ι) :
    Option (Except MigrationError Plan) :=
  (turns.find? (·.script = i)).map fun turn => (runs i).plan ledger turn.before

/-- What a run recorded, in order. -/
def recordedBy (ledger : Ledger) (turns : List (Turn ι)) (i : ι) : List String :=
  (turns.filter (·.script = i)).filterMap (·.recorded? ledger)

private theorem planned?_concat (runs : ι → Rival) (turns : List (Turn ι)) (turn : Turn ι) :
    planned? ledger runs (turns ++ [turn]) turn.script =
      some ((planned? ledger runs turns turn.script).getD
        ((runs turn.script).plan ledger turn.before)) := by
  rw [planned?, planned?, List.find?_append, List.find?_cons_of_pos (by simp)]
  cases turns.find? (·.script = turn.script) <;> rfl

private theorem planned?_concat_of_ne (runs : ι → Rival) (turns : List (Turn ι)) {turn : Turn ι}
    {i : ι} (other : turn.script ≠ i) :
    planned? ledger runs (turns ++ [turn]) i = planned? ledger runs turns i := by
  rw [planned?, List.find?_append, List.find?_cons_of_neg (by simpa using other), List.find?_nil,
    Option.or_none, planned?]

private theorem recordedBy_concat (turns : List (Turn ι)) (turn : Turn ι) :
    recordedBy ledger (turns ++ [turn]) turn.script =
      recordedBy ledger turns turn.script ++ (turn.recorded? ledger).toList := by
  rw [recordedBy, List.filter_append, List.filter_cons_of_pos (by simp),
    List.filter_nil, List.filterMap_concat, recordedBy]

private theorem recordedBy_concat_of_ne (turns : List (Turn ι)) {turn : Turn ι} {i : ι}
    (other : turn.script ≠ i) :
    recordedBy ledger (turns ++ [turn]) i = recordedBy ledger turns i := by
  rw [recordedBy, List.filter_append, List.filter_cons_of_neg (by simpa using other),
    List.filter_nil, List.append_nil, recordedBy]

private theorem mem_recordedBy {turns : List (Turn ι)} {i : ι} {id : String} :
    id ∈ recordedBy ledger turns i ↔
      ∃ turn ∈ turns, turn.script = i ∧ turn.recorded? ledger = some id := by
  simp only [recordedBy, List.mem_filterMap, List.mem_filter, decide_eq_true_eq, and_assoc]

end Rival

open Rival

variable [DecidableEq ι] {runs : ι → Rival} {s now : Store} {turns : List (Turn ι)}
  {current : ι → Script (Except MigrationError RunReport)}

/-- The state of runs that take turns: the ledger has what it had before and what they recorded, and
each run is where its plan and its records say. -/
structure Rivals (ledger : Ledger) (runs : ι → Rival) (s : Store) (turns : List (Turn ι))
    (current : ι → Script (Except MigrationError RunReport)) (now : Store) : Prop where
  written : ledger.Written now
  recorded : ledger.recorded now = ledger.recorded s ++ turns.filterMap (·.recorded? ledger)
  stands : ∀ i, (runs i).Stands ledger (planned? ledger runs turns i) (recordedBy ledger turns i)
    (current i)

namespace Rivals

/-- Every turn keeps the state of the runs. -/
theorem turn (rivals : Rivals ledger runs s turns current now) {i : ι} {c : Call}
    {next : Except StoreError c.Answer → Script (Except MigrationError RunReport)}
    (call : current i = .call c next) (spares : (runs i).registry.Spares ledger.collection) :
    Rivals ledger runs s (turns ++ [⟨i, c, now⟩])
      (Function.update current i (next (now.perform c).1)) (now.perform c).2 := by
  obtain ⟨written, recorded, stands⟩ := (rivals.stands i).turn call rivals.written spares i
  refine ⟨written, ?_, fun j => ?_⟩
  · rw [List.filterMap_concat, ← List.append_assoc, ← rivals.recorded]
    exact recorded
  · by_cases own : i = j
    · subst own
      rw [planned?_concat, recordedBy_concat, Function.update_self]
      exact stands
    · rw [planned?_concat_of_ne runs turns own, recordedBy_concat_of_ne turns own,
        Function.update_of_ne (Ne.symm own)]
      exact rivals.stands j

/-- What a run recorded was new, and no other run recorded it. -/
theorem fresh (rivals : Rivals ledger runs s turns current now) (i : ι) :
    (recordedBy ledger turns i).Nodup ∧
    ∀ id ∈ recordedBy ledger turns i,
      id ∉ ledger.recorded s ∧ ∀ j, id ∈ recordedBy ledger turns j → j = i := by
  have nodup := rivals.written.keyed.nodup
  rw [rivals.recorded, List.nodup_append] at nodup
  obtain ⟨-, nodup, apart⟩ := nodup
  refine ⟨nodup.sublist (List.filter_sublist.filterMap _), fun id member => ⟨?_, fun j also => ?_⟩⟩
  · obtain ⟨turn, taken, -, recorded⟩ := mem_recordedBy.mp member
    intro before
    exact apart id before id (List.mem_filterMap.mpr ⟨turn, taken, recorded⟩) rfl
  · obtain ⟨first, taken, rfl, recorded⟩ := mem_recordedBy.mp member
    obtain ⟨second, other, rfl, same⟩ := mem_recordedBy.mp also
    rw [List.eq_of_nodup_filterMap nodup other taken same recorded]

/-- The ledger has what it had before and what the runs recorded. -/
theorem mem_recorded (rivals : Rivals ledger runs s turns current now) (id : String) :
    id ∈ ledger.recorded now ↔ id ∈ ledger.recorded s ∨ ∃ i, id ∈ recordedBy ledger turns i := by
  rw [rivals.recorded, List.mem_append, List.mem_filterMap]
  simp only [mem_recordedBy]
  constructor
  · rintro (before | ⟨turn, taken, recorded⟩)
    · exact .inl before
    · exact .inr ⟨turn.script, turn, taken, rfl, recorded⟩
  · rintro (before | ⟨i, turn, taken, -, recorded⟩)
    · exact .inl before
    · exact .inr ⟨turn, taken, recorded⟩

/-- A run that comes to a migration of its plan which another run records goes no further, and fails
there. -/
theorem halts (rivals : Rivals ledger runs s turns current now) {i j : ι} {plan : Plan}
    {first last : List String} {id : String}
    (planned : planned? ledger runs turns i = some (.ok plan))
    (ids : plan.ids = first ++ id :: last) (reached : first ⊆ recordedBy ledger turns i)
    (other : j ≠ i) (recorded : id ∈ recordedBy ledger turns j) :
    recordedBy ledger turns i = first ∧
    ∀ result, current i = .done result →
      ∃ batch error, Obstacle id error ∧
        result = .ok ⟨.up, batch, first, some ⟨id, .up, error⟩⟩ := by
  have stands := rivals.stands i
  rw [planned] at stands
  obtain ⟨turn, -, made⟩ := Option.map_eq_some_iff.mp planned
  obtain ⟨nodup, -⟩ := plan_ok made
  have without : id ∉ recordedBy ledger turns i := by
    intro own
    exact other ((rivals.fresh i).2 id own |>.2 j recorded)
  have begun := stands.isPrefix
  rw [ids] at nodup begun
  have same := List.eq_of_isPrefix_of_not_mem nodup begun reached without
  rw [same] at stands
  refine ⟨same, fun result done => ?_⟩
  rw [done] at stands
  obtain whole | ⟨failed, later, error, rest, reason, batch, rfl⟩ := stands.of_done.2 plan rfl
  · rw [ids] at whole
    simp at whole
  · rw [ids] at rest
    obtain ⟨rfl, rfl⟩ := List.cons.inj (List.append_cancel_left rest)
    exact ⟨batch, error, reason, rfl⟩

end Rivals

/-- Turns of runs up whose bodies leave the ledger to itself keep the state of the runs. -/
theorem Interleaved.rivals (written : ledger.Written s)
    (spares : ∀ i, (runs i).registry.Spares ledger.collection)
    (ran : Interleaved (fun i => (runs i).script ledger) s turns current now) :
    Rivals ledger runs s turns current now := by
  induction ran with
  | start => exact ⟨written, (List.append_nil _).symm, fun _ => .outside⟩
  | turn _ call ih => exact ih.turn call (spares _)

namespace Rival

/-- Runs up that take turns in any order, without a lock, record nothing twice. What a run has
recorded at any point was not in the ledger before, is recorded by no other run, and is what the run
reports as completed when it is done; the ledger has what it had before and all of that. A run that
comes to a migration of its plan which another run records completes nothing from there on: when it
is done, it has failed there, because its body failed or because the migration is recorded. -/
theorem recorded_once (ledger : Ledger) (runs : ι → Rival) (written : ledger.Written s)
    (spared : ∀ i, (runs i).registry.Spares ledger.collection)
    (ran : Interleaved (fun i => (runs i).script ledger) s turns current now) :
    let recorded := recordedBy ledger turns
    (∀ i, (recorded i).Nodup ∧
      ∀ id ∈ recorded i, id ∉ ledger.recorded s ∧ ∀ j, id ∈ recorded j → j = i) ∧
    (∀ i result, current i = .done result → completed result = recorded i) ∧
    ((ledger.recorded now).Nodup ∧
      ∀ id, id ∈ ledger.recorded now ↔ id ∈ ledger.recorded s ∨ ∃ i, id ∈ recorded i) ∧
    ∀ i plan first id last, planned? ledger runs turns i = some (.ok plan) →
      plan.ids = first ++ id :: last → first ⊆ recorded i → (∃ j ≠ i, id ∈ recorded j) →
      recorded i = first ∧
      ∀ result, current i = .done result →
        ∃ batch error, Obstacle id error ∧
          result = .ok ⟨.up, batch, first, some ⟨id, .up, error⟩⟩ := by
  intro recorded
  have rivals := ran.rivals written spared
  refine ⟨rivals.fresh, ?_, ⟨rivals.written.keyed.nodup, rivals.mem_recorded⟩, ?_⟩
  · intro i result done
    have stands := rivals.stands i
    rw [done] at stands
    exact stands.of_done.1
  · rintro i plan first id last planned ids reached ⟨j, other, taken⟩
    exact rivals.halts planned ids reached other taken

/-- Two runs up of registries that share an identifier. -/
def two (i : Fin 2) : Rival where
  registry := (Registry.empty.insert (Definition.creating "20250102-orders" "orders").toMigration)
    |>.insert (Definition.creating "20250101-users" ["users", "people"][i]).toMigration
  target := [.to "20250101-users", .all][i]
  clock := fun _ => ⟨⟨2025, 1, 1⟩, 8, 0, 1, 0⟩

/-- Both runs plan before the first of them records what it shares with the second. -/
def twoPlayed : Play (Fin 2) (Except MigrationError RunReport) :=
  .ofSchedule (fun i => (two i).script ⟨"migrations"⟩) {} [0, 1, 0, 1, 0, 1]

theorem recorded_once_two :
    let ledger : Ledger := ⟨"migrations"⟩
    recordedBy ledger twoPlayed.turns 0 = ["20250101-users"] ∧
    (∃ plan, planned? ledger two twoPlayed.turns 1 = some (.ok plan) ∧
      plan.ids = ["20250101-users", "20250102-orders"]) ∧
    recordedBy ledger twoPlayed.turns 1 = [] ∧
    ∃ batch error, Obstacle "20250101-users" error ∧ twoPlayed.current 1 =
      .done (.ok ⟨.up, batch, [], some ⟨"20250101-users", .up, error⟩⟩) := by
  intro ledger
  have written : ledger.Written {} := ⟨[], rfl, List.nodup_nil⟩
  have spared (i : Fin 2) : (two i).registry.Spares "migrations" := by
    intro m member direction
    have apart : ∀ i : Fin 2, ["users", "people"][i] ≠ "migrations" := by decide
    obtain rfl | member := Registry.mem_place member
    · exact Script.spares_of_avoids (Definition.avoids_creating (apart i) direction)
    · obtain rfl := List.mem_singleton.mp member
      exact Script.spares_of_avoids (Definition.avoids_creating (by decide) direction)
  have ran : Interleaved (fun i => (two i).script ledger) {} twoPlayed.turns twoPlayed.current
    twoPlayed.now := Play.interleaved_ofSchedule ..
  have recorded : recordedBy ledger twoPlayed.turns 0 = ["20250101-users"] := by decide +kernel
  have ids : (planned? ledger two twoPlayed.turns 1).map (Except.map Plan.ids) =
      some (.ok ["20250101-users", "20250102-orders"]) := by decide +kernel
  have ended : (twoPlayed.current 1).result?.isSome := by decide +kernel
  have done := Script.eq_done_of_result? (Option.some_get ended).symm
  obtain ⟨made, planned, ok⟩ := Option.map_eq_some_iff.mp ids
  cases made with
  | error reason => contradiction
  | ok plan =>
    have ids : plan.ids = [] ++ "20250101-users" :: ["20250102-orders"] := Except.ok.inj ok
    have taken : ∃ j ≠ (1 : Fin 2), "20250101-users" ∈ recordedBy ledger twoPlayed.turns j :=
      ⟨0, by decide, recorded ▸ List.mem_singleton_self _⟩
    obtain ⟨nothing, halted⟩ := (recorded_once ledger two written spared ran).2.2.2 1 plan [] _ _
      planned ids (List.nil_subset _) taken
    obtain ⟨batch, error, reason, result⟩ := halted _ done
    rw [result] at done
    exact ⟨recorded, ⟨plan, planned, ids⟩, nothing, batch, error, reason, done⟩

end Rival

end Stepwise
