import Stepwise.Proofs.Ledger.Entries
import Stepwise.Proofs.Ledger.Key
import Stepwise.Proofs.Plan.Rest
import Stepwise.Proofs.Run.Data
import Stepwise.Proofs.Run.Preview

/-!
# Runs that are stopped and taken up again

A run is stopped when only the first of its calls are made. The steps that it has recorded by then
are done, and another run to the same target goes through the others (`Migrator.restart_safe`). If
the body that comes next has not been started either, the two runs come to the same as the one
would have.
-/

namespace Stepwise

/-- The store that a script leaves when it is stopped after its first calls. -/
def Script.stopped {α : Type} : Script α → Nat → Store → Store
  | .done _, _, s => s
  | .call _ _, 0, s => s
  | .call c next, n + 1, s => (next (s.perform c).1).stopped n (s.perform c).2

/-- The store after the first calls of a log, which is the last one if there are no more calls. -/
def Script.storeAfter (log : List (Store × Call)) (last : Store) (n : Nat) : Store :=
  (log[n]?.map (·.1)).getD last

namespace Script

variable {α : Type}

theorem stopped_eq (script : Script α) (n : Nat) (s : Store) :
    script.stopped n s = storeAfter (Service.plain.log script s) (script.run s).2 n := by
  induction script generalizing n s with
  | done result => rfl
  | call c next ih =>
    cases n with
    | zero => rfl
    | succ n => exact ih _ n _

/-- A script that is stopped before its first call leaves the store as it is. -/
theorem storeAfter_of_take_eq_nil (script : Script α) {n : Nat} (s : Store)
    (nothing : (Service.plain.log script s).take n = []) :
    storeAfter (Service.plain.log script s) (script.run s).2 n = s := by
  cases script with
  | done result => rfl
  | call c next =>
    cases n with
    | zero => rfl
    | succ n => contradiction

private theorem storeAfter_append (first rest : List (Store × Call)) (last : Store) (n : Nat) :
    storeAfter (first ++ rest) last n =
      if n < first.length then storeAfter first last n
      else storeAfter rest last (n - first.length) := by
  unfold storeAfter
  rw [List.getElem?_append]
  split <;> rfl

end Script

namespace Ledger

variable {ledger : Ledger} {direction : Direction} {m : Migration} {rest : List Migration}
  {s t : Store}

/-- Whether a ledger that only runs have written takes whatever is written to it for migrations. -/
structure Accepts (ledger : Ledger) (direction : Direction) (migrations : List Migration)
    (s : Store) : Prop where
  written : ledger.Written s
  unindexed : ∀ index ∈ (s.collection ledger.collection).indexes, index.unique = false
  fresh : direction = .up → ∀ m ∈ migrations, m.id ∉ ledger.recorded s
  nodup : direction = .up → (migrations.map (·.id)).Nodup

private theorem Accepts.congr {migrations : List Migration}
    (accepts : ledger.Accepts direction migrations s)
    (same : t.collection ledger.collection = s.collection ledger.collection) :
    ledger.Accepts direction migrations t := by
  have documents : ledger.documents t = ledger.documents s := congrArg Collection.documents same
  refine ⟨accepts.written.congr documents, ?_, ?_, accepts.nodup⟩
  · rw [same]
    exact accepts.unindexed
  · rw [recorded_congr documents]
    exact accepts.fresh

/-- A script that spares the ledger leaves its documents as they are wherever it is stopped. -/
theorem documents_storeAfter {α : Type} {script : Script α}
    (spares : script.Spares ledger.collection) (s : Store) (n : Nat) :
    ledger.documents (Script.storeAfter (Service.plain.log script s) (script.run s).2 n) =
      ledger.documents s := by
  rw [Script.storeAfter]
  cases here : (Service.plain.log script s)[n]? with
  | none => exact documents_run .plain spares s
  | some made => exact documents_log .plain spares s made (List.mem_of_getElem? here)

/-- A ledger that accepts migrations accepts the others after what is written for the first one, if
its indexes stay. -/
theorem Accepts.of_write {pass : Pass} (accepts : ledger.Accepts pass.direction (m :: rest) s)
    {now : Instant} (ran : (pass.write ledger now m).run.run s = (.ok (), t))
    (indexes : (t.collection ledger.collection).indexes =
      (s.collection ledger.collection).indexes) : ledger.Accepts pass.direction rest t := by
  obtain ⟨written, unindexed, fresh, nodup⟩ := accepts
  obtain ⟨-, still, recorded⟩ | ⟨error, failed, -⟩ :=
    Stage.run_write .plain ledger pass (x := s) written now m
  · rw [Service.run_plain, ran] at still recorded
    refine ⟨still, by rwa [indexes], fun up other member inside => ?_,
      fun up => (List.nodup_cons.mp (nodup up)).2⟩
    have held := (recorded other.id).mp inside
    rw [up] at held
    obtain before | here := held
    · exact fresh up other (List.mem_cons_of_mem _ member) before
    · have inside : m.id ∈ rest.map (·.id) := by
        rw [← List.mem_singleton.mp here]
        exact List.mem_map_of_mem member
      exact (List.nodup_cons.mp (nodup up)).1 inside
  · rw [Service.run_plain, ran] at failed
    contradiction

/-- A ledger that accepts migrations takes what is written for the first one, and accepts the
others. -/
theorem Accepts.write {pass : Pass} (accepts : ledger.Accepts pass.direction (m :: rest) s)
    (now : Instant) :
    ∃ t, (pass.write ledger now m).run.run s = (.ok (), t) ∧
      ledger.Accepts pass.direction rest t ∧ t.issued = s.issued := by
  have ⟨written, unindexed, fresh, _⟩ := accepts
  cases pass with
  | apply batch =>
    let entry : LedgerEntry := ⟨m.id, now, batch⟩
    have own : entry.document.id? = some (.str m.id) := rfl
    have free : ¬ (s.collection ledger.collection).hasId (.str m.id) = true :=
      (written.hasId m.id).not.mpr (fresh rfl m List.mem_cons_self)
    have allowed : (s.collection ledger.collection).violated? entry.document = none := by
      refine List.find?_eq_none.mpr fun index member => ?_
      rw [unindexed index member, Bool.false_and]
      exact Bool.false_ne_true
    obtain ⟨taken | violated, -⟩ | ⟨-, -, added⟩ := s.counted.add_cases ledger.collection
      (.str m.id) entry.document
    · exact absurd taken free
    · exact absurd allowed violated
    · rw [← Store.insert_of_id? own s] at added
      have ran : ((Pass.apply batch).write ledger now m).run.run s =
          (.ok (), (s.perform (.insert ledger.collection entry.document)).2) := by
        rw [Pass.write, Ledger.record, ← Service.run_plain, Service.run_request,
          Service.perform_plain, Store.perform, added]
        rfl
      refine ⟨_, ran, accepts.of_write ran ?_, ?_⟩
      · rw [Store.perform, added, Store.collection_put, if_pos rfl]
        rfl
      · rw [Store.perform, added]
        rfl
  | revert =>
    have ran : (Pass.revert.write ledger now m).run.run s =
        (.ok (), (s.perform (.deleteFirst ledger.collection (.onId (.str m.id)))).2) := by
      rw [Pass.write, Ledger.erase, ← Service.run_plain, Service.run_attempt_bind,
        Service.run_request, Service.perform_plain, Store.perform]
      obtain ⟨-, kept⟩ | ⟨_, -, deleted⟩ :=
        s.deleteFirst_cases ledger.collection (.onId (.str m.id))
      · rw [kept]
        rfl
      · rw [deleted]
        rfl
    refine ⟨_, ran, accepts.of_write ran ?_, ?_⟩
    · rw [Store.perform, Store.deleteFirst_eq]
      split
      · rw [Store.collection_put, if_pos rfl]
      · rfl
    · rw [Store.perform, Store.deleteFirst_eq]
      split <;> rfl

/-- Whether two stores hold the same data, and the same identifiers in the ledger. -/
structure Alike (ledger : Ledger) (s t : Store) : Prop where
  agree : Store.Agree (· ≠ ledger.collection) True s t
  recorded : ∀ id, id ∈ ledger.recorded s ↔ id ∈ ledger.recorded t

theorem Alike.refl (s : Store) : ledger.Alike s s :=
  ⟨.refl s, fun _ => Iff.rfl⟩

theorem Alike.trans {u : Store} (first : ledger.Alike s t) (second : ledger.Alike t u) :
    ledger.Alike s u :=
  ⟨first.agree.trans second.agree, fun id => (first.recorded id).trans (second.recorded id)⟩

theorem Alike.data (alike : ledger.Alike s t) : ledger.data s = ledger.data t :=
  Ledger.data_eq_iff.mpr fun name other => alike.agree.get? name other

end Ledger

namespace Stage

variable {ledger : Ledger} {pass : Pass} {stage : Stage Store} {rest : List Migration}

/-- A stage succeeds in a ledger that accepts its migration if the body does. -/
theorem ended_of_accepts
    (spares : (stage.migration.body pass.direction).run.Spares ledger.collection)
    (accepts : ledger.Accepts pass.direction (stage.migration :: rest) stage.start) :
    (∃ t u, stage.ran .plain pass = (.ok (), t) ∧ stage.ended .plain ledger pass = (.ok (), u) ∧
      ledger.Accepts pass.direction rest u ∧ u.issued = t.issued ∧
      ledger.data u = ledger.data t) ∨
    ∃ cause t, stage.ran .plain pass = (.error cause, t) ∧
      stage.ended .plain ledger pass =
        (.error (.step stage.migration.id pass.direction cause), t) := by
  have same : (stage.ran .plain pass).2.collection ledger.collection =
      stage.start.collection ledger.collection := by
    have untouched := (Service.plain.get?_run spares stage.start).1
    rw [Store.collection, Store.collection]
    exact congrArg (·.getD {}) untouched
  rw [ended, wrote]
  cases ran : stage.ran .plain pass with
  | mk result t =>
    rw [ran] at same
    cases result with
    | ok _ =>
      obtain ⟨u, wrote, accepts, issued⟩ := (accepts.congr same).write stage.now
      have data := Ledger.data_run_write .plain ledger pass stage.now stage.migration t
      rw [Service.run_plain, wrote] at data
      exact .inl ⟨t, u, rfl, wrote, accepts, issued, data⟩
    | error cause => exact .inr ⟨cause, t, rfl, rfl⟩

/-- Wherever a stage is stopped before its end, only calls of its body are made, and the ledger is
as it was. -/
theorem stop_of_lt
    (spares : (stage.migration.body pass.direction).run.Spares ledger.collection) {n : Nat}
    (before : n < (stage.calls .plain ledger pass).length) (last : Store) :
    (stage.calls .plain ledger pass).take n <+:
        Service.plain.log (stage.migration.body pass.direction).run stage.start ∧
      ledger.documents (Script.storeAfter (stage.calls .plain ledger pass) last n) =
        ledger.documents stage.start ∧
      ((stage.calls .plain ledger pass).take n = [] →
        Script.storeAfter (stage.calls .plain ledger pass) last n = stage.start) := by
  have here : Script.storeAfter (stage.calls .plain ledger pass) last n =
      ((stage.calls .plain ledger pass)[n]).1 := by
    rw [Script.storeAfter, List.getElem?_eq_getElem before]
    rfl
  refine ⟨?_, ?_, fun nothing => ?_⟩
  · obtain ⟨write, short, whole⟩ : ∃ write : List (Store × Call), write.length ≤ 1 ∧
        stage.calls .plain ledger pass =
          Service.plain.log (stage.migration.body pass.direction).run stage.start ++ write := by
      refine ⟨_, ?_, rfl⟩
      split
      · next t _ =>
        obtain ⟨c, log⟩ := log_write .plain ledger pass stage.now stage.migration t
        rw [log, List.length_singleton]
      · exact Nat.zero_le 1
    rw [whole, List.length_append] at before
    rw [whole, List.take_append_of_le_length (by omega)]
    exact List.take_prefix _ _
  · rw [here]
    have moment := List.mem_cons_of_mem ⟨stage.start, .starts pass.direction stage.migration.id⟩
      (List.mem_map_of_mem (f := fun made : Store × Call => Moment.mk made.1 (.calls made.2))
        (List.getElem_mem before))
    exact documents_moments .plain ledger pass spares _ moment
  · have start := Script.storeAfter_of_take_eq_nil
      (Migrator.step ledger pass stage.now stage.migration).run (n := n) stage.start
      (by rwa [log_step])
    rw [log_step, Script.storeAfter, List.getElem?_eq_getElem before] at start
    exact here.trans start

/-- On stores that agree but for the ledger, a stage ends alike, whatever it writes to the ledger.
-/
theorem ended_agree {pass' : Pass} {m : Migration} (now now' : Instant) {x x' : Store}
    (way : pass'.direction = pass.direction)
    (avoids : (m.body pass.direction).run.Avoids ledger.collection)
    (accepts : ledger.Accepts pass.direction (m :: rest) x)
    (accepts' : ledger.Accepts pass.direction (m :: rest) x')
    (same : Store.Agree (· ≠ ledger.collection) True x x') :
    let ended := (Stage.mk m now x).ended .plain ledger pass
    let ended' := (Stage.mk m now' x').ended .plain ledger pass'
    ended'.1 = ended.1 ∧ Store.Agree (· ≠ ledger.collection) True ended.2 ended'.2 ∧
      (ended.1 = .ok () → ledger.Accepts pass.direction rest ended.2 ∧
        ledger.Accepts pass.direction rest ended'.2) := by
  intro ended ended'
  have spares := Script.spares_of_avoids avoids
  have spares' : (m.body pass'.direction).run.Spares ledger.collection := way ▸ spares
  have outcomes := Script.Calls.agree_run (avoids.mono fun c within => ⟨within, .inl trivial⟩) same
  have ran : (m.body pass.direction).run.run x = (Stage.mk m now x).ran .plain pass := rfl
  have ran' : (m.body pass.direction).run.run x' = (Stage.mk m now' x').ran .plain pass' := by
    rw [← way]
    rfl
  rw [ran, ran'] at outcomes
  have one := (Stage.mk m now x).ended_of_accepts spares accepts
  have other := (Stage.mk m now' x').ended_of_accepts spares' (way ▸ accepts')
  obtain ⟨t, u, body, done, after, issued, data⟩ | ⟨cause, t, body, failed⟩ := one
  · rw [body] at outcomes
    obtain ⟨t', u', body', done', after', issued', data'⟩ | ⟨_, _, body', -⟩ := other
    · rw [body'] at outcomes
      dsimp only [ended, ended']
      rw [done, done']
      refine ⟨rfl, ⟨fun name other => ?_, fun _ => ?_⟩, fun _ => ⟨after, way ▸ after'⟩⟩
      · rw [Ledger.data_eq_iff.mp data name other, Ledger.data_eq_iff.mp data' name other]
        exact outcomes.2.get? name other
      · rw [issued, issued']
        exact outcomes.2.issued trivial
    · rw [body'] at outcomes
      cases outcomes.1
  · rw [body] at outcomes
    obtain ⟨_, _, body', -⟩ | ⟨cause', t', body', failed'⟩ := other
    · rw [body'] at outcomes
      cases outcomes.1
    · rw [body'] at outcomes
      obtain ⟨results, agree⟩ := outcomes
      cases results
      dsimp only [ended, ended']
      rw [failed, failed', way]
      exact ⟨rfl, agree, nofun⟩

end Stage

/-- Where a course stands when it is stopped after its first calls: the first of its migrations are
done, and of the next one no more than a part of the body. -/
structure Course.Stop (ledger : Ledger) (pass : Pass) (clock : Clock) (migrations : List Migration)
    (x : Store) (stages : List (Stage Store)) (completed : List String)
    (failure : Option RunFailure) (y : Store) (n done : Nat) (z : Store)
    (made : List (Store × Call)) : Prop where
  first : Course .plain ledger pass clock (migrations.take done) x (stages.take done)
    (completed.take done) none z
  rest : Course .plain ledger pass (fun k => clock (k + done)) (migrations.drop done) z
    (stages.drop done) (completed.drop done) failure y
  accepts : ledger.Accepts pass.direction (migrations.drop done) z
  calls : (stages.flatMap (·.calls .plain ledger pass)).take n =
    (stages.take done).flatMap (·.calls .plain ledger pass) ++ made
  body : made = [] ∨ ∃ stage, stages[done]? = some stage ∧
    made <+: Service.plain.log (stage.migration.body pass.direction).run stage.start
  documents : ledger.documents
    (Script.storeAfter (stages.flatMap (·.calls .plain ledger pass)) y n) = ledger.documents z
  boundary : made = [] →
    Script.storeAfter (stages.flatMap (·.calls .plain ledger pass)) y n = z

namespace Course

variable {ledger : Ledger} {pass : Pass} {clock : Clock} {migrations : List Migration}
  {x y : Store} {stages : List (Stage Store)} {completed : List String}
  {failure : Option RunFailure}

/-- Wherever a course is stopped, it stands after some of its stages. -/
theorem exists_stop
    (course : Course .plain ledger pass clock migrations x stages completed failure y)
    (spares : ∀ m ∈ migrations, (m.body pass.direction).run.Spares ledger.collection)
    (accepts : ledger.Accepts pass.direction migrations x) (n : Nat) :
    ∃ done z made,
      Course.Stop ledger pass clock migrations x stages completed failure y n done z made := by
  induction course generalizing n with
  | finished clock x =>
    exact ⟨0, x, [], .finished clock x, .finished clock x, accepts, List.take_nil, .inl rfl, rfl,
      fun _ => rfl⟩
  | @recorded clock m rest x y stages completed failure ended course ih =>
    obtain ⟨body, others⟩ := List.forall_mem_cons.mp spares
    let stage : Stage Store := ⟨m, clock 0, x⟩
    by_cases before : n < (stage.calls .plain ledger pass).length
    · obtain ⟨part, documents, boundary⟩ := stage.stop_of_lt body before y
      have after : Script.storeAfter ((stage :: stages).flatMap (·.calls .plain ledger pass)) y n =
          Script.storeAfter (stage.calls .plain ledger pass) y n := by
        rw [List.flatMap_cons, Script.storeAfter_append, if_pos before]
      refine ⟨0, x, (stage.calls .plain ledger pass).take n, .finished clock x,
        .recorded ended course, accepts, ?_, .inr ⟨stage, rfl, part⟩, after ▸ documents,
        after ▸ boundary⟩
      rw [List.flatMap_cons, List.take_append_of_le_length (Nat.le_of_lt before)]
      rfl
    · have beyond := Nat.le_of_not_lt before
      obtain ⟨t, u, -, ran, later, -, -⟩ | ⟨cause, t, -, failed⟩ :=
        stage.ended_of_accepts body accepts
      · rw [ran] at course ih
        obtain ⟨done, z, made, stop⟩ :=
          ih others later (n - (stage.calls .plain ledger pass).length)
        have after :
            Script.storeAfter ((stage :: stages).flatMap (·.calls .plain ledger pass)) y n =
              Script.storeAfter (stages.flatMap (·.calls .plain ledger pass)) y
                (n - (stage.calls .plain ledger pass).length) := by
          rw [List.flatMap_cons, Script.storeAfter_append, if_neg before]
        refine ⟨done + 1, z, made, .recorded ended (ran ▸ stop.first), stop.rest, stop.accepts, ?_,
          stop.body, after ▸ stop.documents, after ▸ stop.boundary⟩
        rw [List.take_succ_cons, List.flatMap_cons, List.flatMap_cons, List.take_append,
          List.take_of_length_le beyond, stop.calls, List.append_assoc]
      · rw [failed] at ended
        contradiction
  | @stopped clock m rest x _ ended =>
    obtain ⟨body, others⟩ := List.forall_mem_cons.mp spares
    let stage : Stage Store := ⟨m, clock 0, x⟩
    obtain ⟨t, u, -, ran, -⟩ | ⟨cause, t, ran, failed⟩ := stage.ended_of_accepts body accepts
    · rw [ran] at ended
      contradiction
    · have calls : [stage].flatMap (·.calls .plain ledger pass) =
          Service.plain.log (m.body pass.direction).run x := by
        rw [List.flatMap_singleton, Stage.calls, ran]
        exact List.append_nil _
      have last : (stage.ended .plain ledger pass).2 =
          ((m.body pass.direction).run.run x).2 := by
        rw [failed, ← Service.run_plain]
        exact (congrArg Prod.snd ran).symm
      refine ⟨0, x, (Service.plain.log (m.body pass.direction).run x).take n, .finished clock x,
        .stopped ended, accepts, ?_, .inr ⟨stage, rfl, List.take_prefix _ _⟩, ?_, ?_⟩
      · rw [calls]
        rfl
      · rw [calls, last]
        exact Ledger.documents_storeAfter body x n
      · rw [calls, last]
        exact Script.storeAfter_of_take_eq_nil _ x

/-- Courses through the same migrations come to the same on stores that agree but for the ledger. -/
theorem agree {pass' : Pass} {clock' : Clock} {x' y' : Store} {stages' : List (Stage Store)}
    {completed' : List String} {failure' : Option RunFailure}
    (way : pass'.direction = pass.direction)
    (course : Course .plain ledger pass clock migrations x stages completed failure y)
    (course' : Course .plain ledger pass' clock' migrations x' stages' completed' failure' y')
    (avoids : ∀ m ∈ migrations, (m.body pass.direction).run.Avoids ledger.collection)
    (accepts : ledger.Accepts pass.direction migrations x)
    (accepts' : ledger.Accepts pass.direction migrations x')
    (same : Store.Agree (· ≠ ledger.collection) True x x') :
    completed' = completed ∧ failure' = failure ∧
      Store.Agree (· ≠ ledger.collection) True y y' := by
  induction course generalizing clock' x' stages' completed' with
  | finished clock x =>
    cases course' with
    | finished clock' x' => exact ⟨rfl, rfl, same⟩
  | @recorded clock m rest x _ _ _ _ ended _ ih =>
    obtain ⟨body, others⟩ := List.forall_mem_cons.mp avoids
    cases course' with
    | recorded ended' course' =>
      obtain ⟨-, agree, later⟩ := Stage.ended_agree (clock 0) (clock' 0) way body
        accepts accepts' same
      obtain ⟨after, after'⟩ := later ended
      obtain ⟨completed, failed, agree⟩ := ih course' others after after' agree
      exact ⟨congrArg _ completed, failed, agree⟩
    | stopped ended' =>
      obtain ⟨results, -⟩ := Stage.ended_agree (clock 0) (clock' 0) way body
        accepts accepts' same
      rw [ended, ended'] at results
      contradiction
  | @stopped clock m rest x _ ended =>
    obtain ⟨body, others⟩ := List.forall_mem_cons.mp avoids
    obtain ⟨results, agree, -⟩ := Stage.ended_agree (clock 0) (clock' 0) way body
      accepts accepts' same
    cases course' with
    | recorded ended' course' =>
      rw [ended, ended'] at results
      contradiction
    | stopped ended' =>
      rw [ended, ended'] at results
      cases results
      exact ⟨rfl, by rw [way], agree⟩

/-- Courses through the same migrations come to the same on stores that are alike. -/
theorem alike {pass' : Pass} {clock' : Clock} {x' y' : Store} {stages' : List (Stage Store)}
    {completed' : List String} {failure' : Option RunFailure}
    (course : Course .plain ledger pass clock migrations x stages completed failure y)
    (course' : Course .plain ledger pass' clock' migrations x' stages' completed' failure' y')
    (way : pass'.direction = pass.direction)
    (avoids : ∀ m ∈ migrations, (m.body pass.direction).run.Avoids ledger.collection)
    (accepts : ledger.Accepts pass.direction migrations x)
    (accepts' : ledger.Accepts pass.direction migrations x')
    (alike : ledger.Alike x x') :
    completed' = completed ∧ failure' = failure ∧ ledger.Alike y y' := by
  have spares : ∀ m ∈ migrations, (m.body pass.direction).run.Spares ledger.collection :=
    fun m member => Script.spares_of_avoids (avoids m member)
  obtain ⟨completed, failed, agree⟩ :=
    course.agree way course' avoids accepts accepts' alike.agree
  refine ⟨completed, failed, agree, fun id => ?_⟩
  obtain ⟨-, one⟩ := course.recorded_iff spares accepts.written
  obtain ⟨-, other⟩ := course'.recorded_iff (way ▸ spares) accepts'.written
  refine (one id).trans (Iff.trans ?_ (other id).symm)
  rw [way, completed]
  cases pass.direction with
  | up => exact or_congr_left (alike.recorded id)
  | down => exact and_congr_left' (alike.recorded id)

/-- Courses through the same migrations from one store end with the same data and the same
identifiers in the ledger. -/
theorem ends_alike {pass' : Pass} {clock' : Clock} {y' : Store} {stages' : List (Stage Store)}
    {completed' : List String} {failure' : Option RunFailure}
    (way : pass'.direction = pass.direction)
    (course : Course .plain ledger pass clock migrations x stages completed failure y)
    (course' : Course .plain ledger pass' clock' migrations x stages' completed' failure' y')
    (avoids : ∀ m ∈ migrations, (m.body pass.direction).run.Avoids ledger.collection)
    (accepts : ledger.Accepts pass.direction migrations x) :
    completed' = completed ∧ failure' = failure ∧ ledger.data y' = ledger.data y ∧
      ∀ id, id ∈ ledger.recorded y' ↔ id ∈ ledger.recorded y := by
  obtain ⟨completed, failed, alike⟩ := course.alike course' way avoids accepts accepts (.refl x)
  exact ⟨completed, failed, alike.data.symm, fun id => (alike.recorded id).symm⟩

/-- A stage is dated by a reading of the clock. -/
theorem exists_now
    (course : Course .plain ledger pass clock migrations x stages completed failure y) :
    ∀ stage ∈ stages, ∃ k, stage.now = clock k := by
  induction course with
  | finished clock x => exact List.forall_mem_nil _
  | recorded _ _ ih =>
    refine List.forall_mem_cons.mpr ⟨⟨0, rfl⟩, fun stage member => ?_⟩
    obtain ⟨k, reading⟩ := ih stage member
    exact ⟨k + 1, reading⟩
  | stopped _ => exact List.forall_mem_singleton.mpr ⟨0, rfl⟩

/-- What a run records can be read if the clock is legible and the batch fits 64 bits. -/
theorem readable
    (course : Course .plain ledger pass clock migrations x stages completed failure y)
    (spares : ∀ m ∈ migrations, (m.body pass.direction).run.Spares ledger.collection)
    (legible : ∀ k, (clock k).IsLegible)
    (fits : ∀ batch, pass = .apply batch →
      -0x8000000000000000 ≤ batch ∧ batch < 0x8000000000000000)
    (before : ledger.Readable x) : ledger.Readable y := by
  intro document member
  obtain there | ⟨stage, started, batch, applies, rfl⟩ := course.mem_documents spares member
  · exact before document there
  · obtain ⟨k, reading⟩ := course.exists_now stage started
    have dated : (stage.entry batch).appliedAt.IsLegible := by
      rw [Stage.entry, reading]
      exact legible k
    obtain ⟨least, most⟩ := fits batch applies
    exact ⟨_, LedgerEntry.ofDocument_document dated least most⟩

end Course

namespace Migrator

section

variable {migrator : Migrator} {target : RunTarget} {clock : Clock} {s : Store} {plan : Plan}

/-- A run that has a plan reads the ledger and goes through the plan. -/
theorem run_eq_goThrough (planned : ((migrator.preview target).run.run s).1 = .ok plan)
    (clock : Clock) :
    ∃ entries, LedgerEntry.ofDocuments (migrator.ledger.documents s) = .ok entries ∧
      Service.plain.run (migrator.migrate target clock).run s =
        Service.plain.run (migrator.goThrough target clock entries plan).run s ∧
      Service.plain.log (migrator.migrate target clock).run s =
        (s, .find migrator.ledger.collection []) ::
          Service.plain.log (migrator.goThrough target clock entries plan).run s := by
  obtain ⟨readable, planned⟩ := run_preview_eq_ok.mp planned
  obtain ⟨entries, read⟩ := LedgerEntry.exists_ofDocuments.mpr readable
  have ran : Service.plain.run migrator.ledger.entries.run s = (.ok entries, s) := by
    rw [Service.run_plain, Ledger.run_entries_plain, read]
    rfl
  have ids : LedgerEntry.ids entries = IdSet.ofList (migrator.ledger.recorded s) :=
    LedgerEntry.ids_of_ofDocuments read
  refine ⟨entries, read, ?_, ?_⟩
  · rw [migrate_eq, Service.run_attempt_bind, ran]
    dsimp only
    rw [ids, planned]
    rfl
  · rw [migrate_eq, Service.log_attempt_bind, ran, Ledger.log_entries]
    dsimp only
    rw [ids, planned]
    rfl

/-- A run that has a plan goes through it. -/
theorem run_migrate_of_preview (planned : ((migrator.preview target).run.run s).1 = .ok plan)
    (clock : Clock) :
    ∃ (report : RunReport) (entries : List LedgerEntry) (stages : List (Stage Store)),
      ((migrator.migrate target clock).run.run s).1 = .ok report ∧
      LedgerEntry.ofDocuments (migrator.ledger.documents s) = .ok entries ∧
      Course .plain migrator.ledger (Pass.ofTarget entries target) clock plan.steps s stages
        report.completed report.failure ((migrator.migrate target clock).run.run s).2 ∧
      Service.plain.log (migrator.migrate target clock).run s =
        (s, .find migrator.ledger.collection []) :: Service.plain.log
          (migrator.goThrough target clock entries plan).run s ∧
      Service.plain.log (migrator.goThrough target clock entries plan).run s =
        stages.flatMap (·.calls .plain migrator.ledger (Pass.ofTarget entries target)) ∧
      ((migrator.migrate target clock).run.run s).2 =
        ((migrator.goThrough target clock entries plan).run.run s).2 := by
  obtain ⟨entries, read, whole, log⟩ := run_eq_goThrough planned clock
  obtain ⟨report, stages, ok, -, -, course, calls⟩ :=
    run_goThrough .plain migrator target clock s entries plan
  rw [← whole] at ok course
  exact ⟨report, entries, stages, ok, read, course, log, calls, congrArg Prod.snd whole⟩

/-- Where a run that goes through a plan is stopped, in terms of the calls of its stages: the first
call of the run reads the ledger, which changes nothing. -/
theorem stopped_eq {entries : List LedgerEntry} {stages : List (Stage Store)} {pass : Pass}
    (log : Service.plain.log (migrator.migrate target clock).run s =
      (s, .find migrator.ledger.collection []) :: Service.plain.log
        (migrator.goThrough target clock entries plan).run s)
    (calls : Service.plain.log (migrator.goThrough target clock entries plan).run s =
      stages.flatMap (·.calls .plain migrator.ledger pass))
    (last : ((migrator.migrate target clock).run.run s).2 =
      ((migrator.goThrough target clock entries plan).run.run s).2) (n : Nat) :
    (migrator.migrate target clock).run.stopped n s =
      Script.storeAfter (stages.flatMap (·.calls .plain migrator.ledger pass))
        ((migrator.migrate target clock).run.run s).2 (n - 1) := by
  have start := Script.storeAfter_of_take_eq_nil
    (migrator.goThrough target clock entries plan).run (n := 0) s List.take_zero
  rw [calls, ← last] at start
  have whole := Script.stopped_eq (migrator.migrate target clock).run n s
  rw [log, calls] at whole
  cases n with
  | zero => exact whole.trans start.symm
  | succ n => exact whole

/-- A run has its plan accepted. -/
theorem accepts_of_plan (written : migrator.ledger.Written s)
    (unindexed : ∀ index ∈ (s.collection migrator.ledger.collection).indexes, index.unique = false)
    (planned : Plan.ofTarget migrator.registry (IdSet.ofList (migrator.ledger.recorded s)) target =
      .ok plan) : migrator.ledger.Accepts target.direction plan.steps s := by
  refine ⟨written, unindexed, fun up => ?_, fun up => ?_⟩
  · cases target with
    | up target => exact Plan.not_mem_of_up planned
    | down target => contradiction
  · cases target with
    | up target =>
      obtain ⟨limit, steps⟩ := Plan.steps_up planned
      rw [steps]
      exact migrator.registry.nodup_ids.sublist (List.filter_sublist.map _)
    | down target => contradiction

/-- The batch of a run fits 64 bits if those before it are smaller than the greatest but one. -/
theorem batch_fits {entries : List LedgerEntry} {batch : Int}
    (read : LedgerEntry.ofDocuments (migrator.ledger.documents s) = .ok entries)
    (written : migrator.ledger.Written s)
    (bounded : ∀ entry : LedgerEntry, entry.document ∈ migrator.ledger.documents s →
      entry.batch + 1 < 0x7FFFFFFFFFFFFFFF)
    (applies : Pass.ofTarget entries target = .apply batch) :
    -0x8000000000000000 ≤ batch ∧ batch < 0x8000000000000000 := by
  have least : ∀ entry ∈ entries, -0x8000000000000000 ≤ entry.batch := by
    intro entry member
    obtain ⟨document, -, mapped⟩ := (LedgerEntry.mem_of_ofDocuments read).mp member
    exact (LedgerEntry.batch_range mapped).1
  have most : ∀ entry ∈ entries, entry.batch ≤ 0x7FFFFFFFFFFFFFFD := by
    intro entry member
    obtain ⟨document, inside, mapped⟩ := (LedgerEntry.mem_of_ofDocuments read).mp member
    obtain ⟨stored, documents, -⟩ := written
    rw [documents] at inside
    obtain ⟨original, among, rfl⟩ := List.mem_map.mp inside
    have bound := bounded original (documents ▸ List.mem_map_of_mem among)
    have same := (LedgerEntry.of_ofDocument_document mapped).2
    omega
  have low := LedgerEntry.le_latestBatch (by decide) least
  have high := LedgerEntry.latestBatch_le (fun _ => by decide) most
  cases target with
  | up target =>
    cases applies
    omega
  | down target => contradiction

/-- A run that is stopped has done the first steps of its plan, and the ledger records just these:
all calls so far are those of the steps, or of the body that comes next. The plan for the same
target is what is left of it. If no call of the next body is made, a run that goes on from there
completes the other steps, and leaves the data and the identifiers in the ledger that the whole run
leaves, or fails as that does. The clock is to show years of four digits, and the batches of these
runs to fit 64 bits. -/
theorem restart_safe (resumable : target.IsResumable) (written : migrator.ledger.Written s)
    (unindexed : ∀ index ∈ (s.collection migrator.ledger.collection).indexes, index.unique = false)
    (avoids : migrator.registry.Calls (·.Within (· ≠ migrator.ledger.collection)))
    (legible : ∀ k, (clock k).IsLegible)
    (bounded : ∀ entry : LedgerEntry, entry.document ∈ migrator.ledger.documents s →
      entry.batch + 1 < 0x7FFFFFFFFFFFFFFF)
    (planned : ((migrator.preview target).run.run s).1 = .ok plan) (n : Nat) :
    let run := (migrator.migrate target clock).run
    let stopped := run.stopped n s
    ∃ (report : RunReport) (pass : Pass) (stages : List (Stage Store)) (done : Nat)
      (made : List (Store × Call)),
      (run.run s).1 = .ok report ∧ pass.direction = target.direction ∧
      Course .plain migrator.ledger pass clock plan.steps s stages report.completed report.failure
        (run.run s).2 ∧
      ((Service.plain.log run s).take n).drop 1 =
        (stages.take done).flatMap (·.calls .plain migrator.ledger pass) ++ made ∧
      (made = [] ∨ ∃ stage, stages[done]? = some stage ∧
        made <+: Service.plain.log (stage.migration.body pass.direction).run stage.start) ∧
      (∀ id, id ∈ migrator.ledger.recorded stopped ↔ target.direction.Holds
        (migrator.ledger.recorded s) ((plan.steps.take done).map (·.id)) id) ∧
      ((migrator.preview target).run.run stopped).1 = .ok (plan.rest done) ∧
      (made = [] → ∀ again : Clock,
        let rest := (migrator.migrate target again).run.run stopped
        (∃ later : RunReport, rest.1 = .ok later ∧
          later.completed = report.completed.drop done ∧ later.failure = report.failure) ∧
        migrator.ledger.data rest.2 = migrator.ledger.data (run.run s).2 ∧
        ∀ id, id ∈ migrator.ledger.recorded rest.2 ↔
          id ∈ migrator.ledger.recorded (run.run s).2) := by
  intro run stopped
  obtain ⟨report, entries, stages, ok, read, course, log, calls, last⟩ :=
    run_migrate_of_preview planned clock
  obtain ⟨readable, steps⟩ := run_preview_eq_ok.mp planned
  have way : (Pass.ofTarget entries target).direction = target.direction :=
    Pass.direction_ofTarget entries target
  have bodies : ∀ m ∈ plan.steps,
      (m.body (Pass.ofTarget entries target).direction).run.Avoids migrator.ledger.collection :=
    fun m member => avoids m (Plan.mem_migrations steps member) _
  have spares : ∀ m ∈ plan.steps,
      (m.body (Pass.ofTarget entries target).direction).run.Spares migrator.ledger.collection :=
    fun m member => Script.spares_of_avoids (bodies m member)
  have accepts : migrator.ledger.Accepts (Pass.ofTarget entries target).direction plan.steps s :=
    way ▸ accepts_of_plan written unindexed steps
  obtain ⟨done, z, made, stop⟩ := course.exists_stop spares accepts (n - 1)
  have here : stopped = _ := stopped_eq log calls last n
  have documents : migrator.ledger.documents stopped = migrator.ledger.documents z :=
    here ▸ stop.documents
  have part : ∀ m ∈ plan.steps.take done,
      (m.body (Pass.ofTarget entries target).direction).run.Spares migrator.ledger.collection :=
    fun m member => spares m (List.mem_of_mem_take member)
  have moved : ∀ id, id ∈ migrator.ledger.recorded stopped ↔ target.direction.Holds
      (migrator.ledger.recorded s) ((plan.steps.take done).map (·.id)) id := by
    obtain ⟨-, recorded⟩ := stop.first.recorded_iff part written
    rw [stop.first.completed_all rfl, way] at recorded
    rw [Ledger.recorded_congr documents]
    exact recorded
  have again : ((migrator.preview target).run.run stopped).1 = .ok (plan.rest done) := by
    refine run_preview_eq_ok.mpr ⟨?_, Plan.rest_of_moved resumable steps moved⟩
    rw [Ledger.Readable, documents]
    exact stop.first.readable part legible (fun batch => batch_fits read written bounded) readable
  refine ⟨report, _, stages, done, made, ok, way, course, ?_, stop.body, moved, again, ?_⟩
  · rw [log, calls, List.drop_take, List.drop_one, List.tail_cons]
    exact stop.calls
  · intro nothing clock' rest
    have same : stopped = z := here.trans (stop.boundary nothing)
    have others : ∀ m ∈ plan.steps.drop done, m ∈ plan.steps := fun m => List.mem_of_mem_drop
    obtain ⟨later, entries', stages', ok', -, course', -⟩ := run_migrate_of_preview again clock'
    have way' : (Pass.ofTarget entries' target).direction =
        (Pass.ofTarget entries target).direction := (Pass.direction_ofTarget ..).trans way.symm
    rw [same] at course'
    obtain ⟨completed, failed, data, recorded⟩ := stop.rest.ends_alike way' course'
      (fun m member => bodies m (others m member)) stop.accepts
    rw [← same] at data recorded
    exact ⟨⟨later, ok', completed, failed⟩, data, recorded⟩

end

/-- A run that is stopped after three calls has read the ledger, created the first collection and
recorded that. -/
theorem restart_safe_two :
    let clock : Clock := fun _ => ⟨⟨2025, 1, 3⟩, 8, 0, 0, 0⟩
    let plan : Plan := ⟨.up, Plan.pending two.registry.migrations (IdSet.ofList []) none⟩
    let stopped := (two.migrate (.up .all) clock).run.stopped 3 {}
    two.ledger.recorded stopped = ["20250101-users"] ∧
    ∃ done, ((two.preview (.up .all)).run.run stopped).1 = .ok (plan.rest done) ∧
      ∀ id, id ∈ two.ledger.recorded stopped ↔ id ∈ (plan.steps.take done).map (·.id) := by
  intro clock plan stopped
  have planned : ((two.preview (.up .all)).run.run {}).1 = .ok plan :=
    run_preview_eq_ok.mpr ⟨List.forall_mem_nil _, rfl⟩
  have written : two.ledger.Written {} := ⟨[], rfl, List.nodup_nil⟩
  have legible (k : Nat) : (clock k).IsLegible := by decide
  have resumable : RunTarget.IsResumable (.up .all) := trivial
  obtain ⟨report, pass, stages, done, made, -, -, -, -, -, moved, again, -⟩ :=
    restart_safe resumable written (List.forall_mem_nil _) avoids_two legible
      (fun entry => nofun) planned 3
  refine ⟨by decide +kernel, done, again, fun id => (moved id).trans ?_⟩
  exact or_iff_right List.not_mem_nil

end Migrator

end Stepwise
