import Mathlib.Data.List.Nodup
import Stepwise.Proofs.Lock.Session

/-!
# Sessions take effect in the order of the lock

Sessions that take turns on one store hold the lock one at a time, and what those that get it do is
what they do one after the other, in the order in which they got it. `Orderly` is the invariant: the
sessions that got the lock, each run to its end in that order, have the results and the store of the
present with what is left of them run to its end. Only the last of them can have something left, and
no other session can change a collection. `Interleaved.orderly` says that turns keep it.
-/

namespace Stepwise

variable {ι α : Type} {lock : RunLock} {sessions : ι → Session α}

def Turn.acquires (lock : RunLock) (sessions : ι → Session α) (turn : Turn ι) : Bool :=
  turn.call = (sessions turn.script).acquisition lock && turn.answer.isOk

def Turn.releases (lock : RunLock) (sessions : ι → Session α) (turn : Turn ι) : Bool :=
  turn.call = (sessions turn.script).release lock

namespace Session

/-- The sessions that took the lock, in order. -/
def acquired (lock : RunLock) (sessions : ι → Session α) (turns : List (Turn ι)) : List ι :=
  (turns.filter (·.acquires lock sessions)).map (·.script)

/-- Whether a session took the lock and did not release it yet. -/
def Holds (lock : RunLock) (sessions : ι → Session α) (turns : List (Turn ι)) (i : ι) : Prop :=
  i ∈ acquired lock sessions turns ∧ ∀ turn ∈ turns, turn.releases lock sessions → turn.script ≠ i

theorem acquired_concat (turns : List (Turn ι)) (turn : Turn ι) :
    acquired lock sessions (turns ++ [turn]) =
      acquired lock sessions turns ++
        if turn.acquires lock sessions then [turn.script] else [] := by
  simp only [acquired, List.filter_append, List.filter_cons, List.filter_nil, List.map_append]
  split <;> rfl

private theorem acquired_of_not_acquires {turn : Turn ι}
    (unacquiring : turn.acquires lock sessions = false) (turns : List (Turn ι)) :
    acquired lock sessions (turns ++ [turn]) = acquired lock sessions turns := by
  rw [acquired_concat, unacquiring, if_neg Bool.false_ne_true, List.append_nil]

private theorem acquires_release (i : ι) (now : Store) :
    Turn.acquires lock sessions ⟨i, (sessions i).release lock, now⟩ = false := by
  simp only [Turn.acquires, acquisition, release, reduceCtorEq, decide_false, Bool.false_and]

private theorem releases_acquisition (i : ι) (now : Store) :
    Turn.releases lock sessions ⟨i, (sessions i).acquisition lock, now⟩ = false := by
  simp only [Turn.releases, acquisition, release, reduceCtorEq, decide_false]

private theorem mem_acquired_concat {turns : List (Turn ι)} {turn : Turn ι} {i : ι}
    (member : i ∈ acquired lock sessions turns) :
    i ∈ acquired lock sessions (turns ++ [turn]) := by
  rw [acquired_concat]
  exact List.mem_append_left _ member

private theorem Holds.of_concat {turns : List (Turn ι)} {turn : Turn ι} {i : ι}
    (holds : Holds lock sessions (turns ++ [turn]) i) (other : turn.script ≠ i) :
    Holds lock sessions turns i := by
  obtain ⟨member, unreleased⟩ := holds
  rw [acquired_concat, List.mem_append] at member
  have before : i ∈ acquired lock sessions turns := by
    refine member.resolve_right fun last => ?_
    split at last
    · exact other (List.mem_singleton.mp last).symm
    · contradiction
  exact ⟨before, fun earlier inside => unreleased earlier (List.mem_append_left _ inside)⟩

end Session

open Session

/-- The state of sessions that take turns, seen as one of sessions that run one after the other. -/
structure Orderly (lock : RunLock) (sessions : ι → Session α) (s : Store) (turns : List (Turn ι))
    (current : ι → Script (Except MigrationError α)) (now : Store) : Prop where
  nodup : (acquired lock sessions turns).Nodup
  waiting : ∀ i ∉ acquired lock sessions turns, (sessions i).Waiting lock (current i)
  finished : ∀ i ∈ acquired lock sessions turns, ¬ Holds lock sessions turns i →
    ∃ result, current i = .done result
  working : ∀ i, Holds lock sessions turns i → ∃ attempt : Script (Except MigrationError α),
    attempt.Spares lock.collection ∧ current i = attempt >>= (sessions i).closing lock
  last : ∀ i, Holds lock sessions turns i → (acquired lock sessions turns).getLast? = some i
  taken : ∀ i, Holds lock sessions turns i →
    (now.collection lock.collection).hasId (.str lock.name) = true
  released : ∀ turn ∈ turns, turn.releases lock sessions →
    turn.script ∈ acquired lock sessions turns
  harmless : ∀ turn ∈ turns, turn.script ∉ acquired lock sessions turns →
    turn.after.collections = turn.before.collections
  replayed : Store.Agree.Outcomes (fun _ => True) True
    (((acquired lock sessions turns).mapM fun i => (sessions i).script lock).run s)
    (((acquired lock sessions turns).mapM current).run now)

namespace Orderly

variable {s now : Store} {turns : List (Turn ι)} {i : ι}
  {current : ι → Script (Except MigrationError α)}

/-- Before the first turn, no session has the lock. -/
theorem start : Orderly lock sessions s [] (fun i => (sessions i).script lock) s where
  nodup := List.nodup_nil
  waiting := fun _ _ => .outside
  finished := nofun
  working := fun _ holds => absurd holds.1 List.not_mem_nil
  last := fun _ holds => absurd holds.1 List.not_mem_nil
  taken := fun _ holds => absurd holds.1 List.not_mem_nil
  released := nofun
  harmless := nofun
  replayed := ⟨rfl, .refl s⟩

/-- No two sessions hold the lock. -/
theorem holds_unique {j : ι} (orderly : Orderly lock sessions s turns current now)
    (first : Holds lock sessions turns i) (second : Holds lock sessions turns j) : i = j :=
  Option.some.inj ((orderly.last i first).symm.trans (orderly.last j second))

variable [DecidableEq ι] {c : Call} {script : Script (Except MigrationError α)}

/-- What is left of the sessions in the order of the lock comes to the same after the holder's next
call. -/
theorem replayed_turn (orderly : Orderly lock sessions s turns current now)
    (held : Holds lock sessions turns i)
    {next : Except StoreError c.Answer → Script (Except MigrationError α)}
    (call : current i = .call c next) :
    Store.Agree.Outcomes (fun _ => True) True
      (((acquired lock sessions turns).mapM current).run now)
      (((acquired lock sessions turns).mapM
        (Function.update current i (next (now.perform c).1))).run (now.perform c).2) := by
  obtain ⟨earlier, order⟩ := List.getLast?_eq_some_iff.mp (orderly.last i held)
  have outside : i ∉ earlier := by
    intro inside
    have nodup := orderly.nodup
    rw [order, List.nodup_append] at nodup
    exact nodup.2.2 i inside i (List.mem_singleton_self i) rfl
  have finished : ∀ j ∈ earlier, ∃ result, current j = .done result := by
    intro j inside
    refine orderly.finished j (order ▸ List.mem_append_left _ inside) fun also => outside ?_
    rwa [orderly.holds_unique held also]
  obtain ⟨results, ended⟩ := Script.exists_mapM_done finished
  have whole : current = Function.update current i (.call c next) := by
    rw [← call, Function.update_eq_self]
  have before := Script.run_mapM_last ended outside (.call c next) now
  rw [← whole] at before
  rw [order, before, Script.run_mapM_last ended outside]
  exact ⟨rfl, .refl _⟩

/-- A turn that neither takes nor releases the lock keeps the order. -/
theorem quiet (orderly : Orderly lock sessions s turns current now)
    (unacquiring : Turn.acquires lock sessions ⟨i, c, now⟩ = false)
    (unreleasing : Turn.releases lock sessions ⟨i, c, now⟩ = false)
    (unfinished : i ∈ acquired lock sessions turns → Holds lock sessions turns i)
    (waiting : i ∉ acquired lock sessions turns → (sessions i).Waiting lock script ∧
      (now.perform c).2.collections = now.collections)
    (working : Holds lock sessions turns i → ∃ attempt : Script (Except MigrationError α),
      attempt.Spares lock.collection ∧ script = attempt >>= (sessions i).closing lock)
    (untouched : (now.perform c).2.collection lock.collection = now.collection lock.collection)
    (replayed : Store.Agree.Outcomes (fun _ => True) True
      (((acquired lock sessions turns).mapM current).run now)
      (((acquired lock sessions turns).mapM (Function.update current i script)).run
        (now.perform c).2)) :
    Orderly lock sessions s (turns ++ [⟨i, c, now⟩]) (Function.update current i script)
      (now.perform c).2 := by
  have same := acquired_of_not_acquires unacquiring turns
  have holds {j : ι} : Holds lock sessions (turns ++ [⟨i, c, now⟩]) j ↔
      Holds lock sessions turns j := by
    rw [Holds, same, List.forall_mem_append, List.forall_mem_singleton, unreleasing]
    constructor
    · rintro ⟨member, unreleased, -⟩
      exact ⟨member, unreleased⟩
    · rintro ⟨member, unreleased⟩
      exact ⟨member, unreleased, fun never => absurd never Bool.false_ne_true⟩
  constructor
  case nodup =>
    rw [same]
    exact orderly.nodup
  case waiting =>
    intro j outside
    rw [same] at outside
    by_cases own : j = i
    · subst own
      rw [Function.update_self]
      exact (waiting outside).1
    · rw [Function.update_of_ne own]
      exact orderly.waiting j outside
  case finished =>
    intro j inside unheld
    rw [same] at inside
    rw [holds] at unheld
    have own : j ≠ i := by
      rintro rfl
      exact unheld (unfinished inside)
    rw [Function.update_of_ne own]
    exact orderly.finished j inside unheld
  case working =>
    intro j held
    rw [holds] at held
    by_cases own : j = i
    · subst own
      rw [Function.update_self]
      exact working held
    · rw [Function.update_of_ne own]
      exact orderly.working j held
  case last =>
    intro j held
    rw [same]
    exact orderly.last j (holds.mp held)
  case taken =>
    intro j held
    rw [untouched]
    exact orderly.taken j (holds.mp held)
  case released =>
    rw [same, List.forall_mem_append, List.forall_mem_singleton, unreleasing]
    exact ⟨orderly.released, fun never => absurd never Bool.false_ne_true⟩
  case harmless =>
    rw [same, List.forall_mem_append, List.forall_mem_singleton]
    exact ⟨orderly.harmless, fun outside => (waiting outside).2⟩
  case replayed =>
    rw [same]
    exact orderly.replayed.trans replayed

/-- Taking the lock puts a session at the end of the order. -/
theorem acquire (orderly : Orderly lock sessions s turns current now)
    (outside : i ∉ acquired lock sessions turns)
    (fresh : current i = (sessions i).script lock)
    (answer : (now.perform ((sessions i).acquisition lock)).1 = .ok ())
    (spares : (sessions i).attempt.run.Spares lock.collection) :
    Orderly lock sessions s (turns ++ [⟨i, (sessions i).acquisition lock, now⟩])
      (Function.update current i ((sessions i).attempt.run >>= (sessions i).closing lock))
      (now.perform ((sessions i).acquisition lock)).2 := by
  obtain ⟨key, refused⟩ | ⟨absent, added⟩ := (sessions i).perform_acquisition lock now
  · rw [refused] at answer
    contradiction
  have acquires : Turn.acquires lock sessions ⟨i, (sessions i).acquisition lock, now⟩ = true := by
    simp only [Turn.acquires, Turn.answer, added, decide_true, Bool.true_and]
    rfl
  have more : acquired lock sessions (turns ++ [⟨i, (sessions i).acquisition lock, now⟩]) =
      acquired lock sessions turns ++ [i] := by
    rw [acquired_concat, acquires, if_pos rfl]
  have free (j : ι) : ¬ Holds lock sessions turns j := by
    intro held
    rw [orderly.taken j held] at absent
    contradiction
  have holds {j : ι} (held : Holds lock sessions
      (turns ++ [⟨i, (sessions i).acquisition lock, now⟩]) j) : j = i := by
    by_contra other
    exact free j (held.of_concat (Ne.symm other))
  constructor
  case nodup =>
    rw [more]
    exact List.concat_eq_append ▸ orderly.nodup.concat outside
  case waiting =>
    intro j absent
    rw [more, List.mem_append, List.mem_singleton, not_or] at absent
    rw [Function.update_of_ne absent.2]
    exact orderly.waiting j absent.1
  case finished =>
    intro j inside unheld
    rw [more, List.mem_append, List.mem_singleton] at inside
    obtain inside | rfl := inside
    · have other : j ≠ i := by
        rintro rfl
        exact outside inside
      rw [Function.update_of_ne other]
      exact orderly.finished j inside (free j)
    · refine absurd ⟨by rw [more]; exact List.mem_concat_self, ?_⟩ unheld
      rw [List.forall_mem_append, List.forall_mem_singleton, releases_acquisition]
      refine ⟨fun turn member releases own => ?_, fun never => absurd never Bool.false_ne_true⟩
      rw [← own] at outside
      exact outside (orderly.released turn member releases)
  case working =>
    intro j held
    obtain rfl := holds held
    rw [Function.update_self]
    exact ⟨_, spares, rfl⟩
  case last =>
    intro j held
    obtain rfl := holds held
    rw [more, List.getLast?_append, List.getLast?_singleton, Option.some_or]
  case taken =>
    intro j held
    rw [added, Store.collection_put, if_pos rfl]
    exact Collection.hasId_concat _ rfl
  case released =>
    rw [List.forall_mem_append, List.forall_mem_singleton, releases_acquisition]
    refine ⟨fun turn member releases => ?_, fun never => absurd never Bool.false_ne_true⟩
    exact mem_acquired_concat (orderly.released turn member releases)
  case harmless =>
    rw [List.forall_mem_append, List.forall_mem_singleton]
    constructor
    · intro turn member absent
      have before : turn.script ∉ acquired lock sessions turns := by
        intro inside
        exact absent (mem_acquired_concat inside)
      exact orderly.harmless turn member before
    · intro absent
      rw [more] at absent
      exact absurd List.mem_concat_self absent
  case replayed =>
    -- Both sides gain the whole session, on stores that agree.
    obtain ⟨results, ended⟩ := Script.exists_mapM_done fun j inside =>
      orderly.finished j inside (free j)
    have replayed := orderly.replayed
    rw [ended] at replayed
    have session := Script.run_of_agree replayed.2 ((sessions i).script lock)
    have begun : ((sessions i).script lock).run now =
        ((sessions i).attempt.run >>= (sessions i).closing lock).run
          (now.perform ((sessions i).acquisition lock)).2 := by
      rw [script_eq, Script.run, Script.runWith, added]
      rfl
    rw [more, Script.run_mapM_concat, Script.run_mapM_last ended outside, ← begun]
    exact ⟨congrArg₂ (· ++ [·]) replayed.1 session.1, session.2⟩

/-- Releasing the lock ends a session. -/
theorem close (orderly : Orderly lock sessions s turns current now)
    (held : Holds lock sessions turns i) {result : Except MigrationError α}
    (closing : current i = (sessions i).closing lock result) :
    Orderly lock sessions s (turns ++ [⟨i, (sessions i).release lock, now⟩])
      (Function.update current i (.done result)) (now.perform ((sessions i).release lock)).2 := by
  have releases : Turn.releases lock sessions ⟨i, (sessions i).release lock, now⟩ = true := by
    simp only [Turn.releases, decide_true]
  have same : acquired lock sessions (turns ++ [⟨i, (sessions i).release lock, now⟩]) =
      acquired lock sessions turns :=
    acquired_of_not_acquires (acquires_release i now) turns
  have free (j : ι) :
      ¬ Holds lock sessions (turns ++ [⟨i, (sessions i).release lock, now⟩]) j := by
    intro still
    have other : i ≠ j := still.2 _ List.mem_concat_self releases
    exact other (orderly.holds_unique held (still.of_concat other))
  constructor
  case nodup =>
    rw [same]
    exact orderly.nodup
  case waiting =>
    intro j absent
    rw [same] at absent
    have other : j ≠ i := by
      rintro rfl
      exact absent held.1
    rw [Function.update_of_ne other]
    exact orderly.waiting j absent
  case finished =>
    intro j inside _
    rw [same] at inside
    by_cases own : j = i
    · subst own
      exact ⟨result, Function.update_self ..⟩
    · rw [Function.update_of_ne own]
      exact orderly.finished j inside fun also => own (orderly.holds_unique also held)
  case working =>
    exact fun j still => absurd still (free j)
  case last =>
    exact fun j still => absurd still (free j)
  case taken =>
    exact fun j still => absurd still (free j)
  case released =>
    rw [same, List.forall_mem_append, List.forall_mem_singleton]
    exact ⟨orderly.released, fun _ => held.1⟩
  case harmless =>
    rw [same, List.forall_mem_append, List.forall_mem_singleton]
    exact ⟨orderly.harmless, fun absent => absurd held.1 absent⟩
  case replayed =>
    rw [same]
    exact orderly.replayed.trans (orderly.replayed_turn held closing)

/-- A refused session changes nothing at its turns. -/
theorem idle (orderly : Orderly lock sessions s turns current now)
    (outside : i ∉ acquired lock sessions turns)
    (unacquiring : Turn.acquires lock sessions ⟨i, c, now⟩ = false)
    (unreleasing : Turn.releases lock sessions ⟨i, c, now⟩ = false)
    (waiting : (sessions i).Waiting lock script)
    (same : (now.perform c).2.collections = now.collections)
    (issued : (now.perform c).2.issued = now.issued) :
    Orderly lock sessions s (turns ++ [⟨i, c, now⟩]) (Function.update current i script)
      (now.perform c).2 := by
  refine orderly.quiet unacquiring unreleasing (fun inside => absurd inside outside)
    (fun _ => ⟨waiting, same⟩) (fun held => absurd held.1 outside) ?_ ?_
  · rw [Store.collection, same, Store.collection]
  · rw [Script.mapM_update current outside]
    exact Script.run_of_agree (.of_collections same.symm issued.symm) _

/-- Every turn keeps the order. -/
theorem turn (orderly : Orderly lock sessions s turns current now)
    (spares : (sessions i).attempt.run.Spares lock.collection)
    {next : Except StoreError c.Answer → Script (Except MigrationError α)}
    (call : current i = .call c next) :
    Orderly lock sessions s (turns ++ [⟨i, c, now⟩])
      (Function.update current i (next (now.perform c).1)) (now.perform c).2 := by
  by_cases inside : i ∈ acquired lock sessions turns
  · by_cases held : Holds lock sessions turns i
    · obtain ⟨attempt, others, left⟩ := orderly.working i held
      cases attempt with
      | done result =>
        have closing : current i = (sessions i).closing lock result := left
        rw [call] at left
        cases left
        exact orderly.close held closing
      | call own rest =>
        have replayed := orderly.replayed_turn held call
        rw [call] at left
        cases left
        refine orderly.quiet ?_ ?_ (fun _ => held) (fun outside => absurd inside outside)
          (fun _ => ⟨_, others.2 _, rfl⟩) ?_ replayed
        · have other : c ≠ (sessions i).acquisition lock := by
            rintro rfl
            exact others.1 rfl rfl
          simp only [Turn.acquires, other, decide_false, Bool.false_and]
        · have other : c ≠ (sessions i).release lock := by
            rintro rfl
            exact others.1 rfl rfl
          simp only [Turn.releases, other, decide_false]
        · exact now.collection_perform_of_spared others.1
    · obtain ⟨result, done⟩ := orderly.finished i inside held
      rw [done] at call
      contradiction
  · have waits := orderly.waiting i inside
    generalize left : current i = script at waits
    rw [call] at left
    cases waits with
    | refused owner since => contradiction
    | reading =>
      cases left
      exact orderly.idle inside rfl rfl (.refused _ _) rfl rfl
    | outside =>
      have fresh : current i = (sessions i).script lock := call.trans left
      rw [script_eq] at left
      cases left
      cases answer : (now.perform ((sessions i).acquisition lock)).1 with
      | ok _ => exact orderly.acquire inside fresh answer spares
      | error cause =>
        obtain ⟨key, refused⟩ | ⟨-, added⟩ := (sessions i).perform_acquisition lock now
        · have unacquiring :
              Turn.acquires lock sessions ⟨i, (sessions i).acquisition lock, now⟩ = false := by
            simp only [Turn.acquires, Turn.answer, refused, decide_true, Bool.true_and]
            rfl
          rw [refused] at answer
          cases answer
          refine orderly.idle inside unacquiring (releases_acquisition i now) .reading ?_ ?_
          · rw [refused, Store.counted]
          · rw [refused, Store.counted]
        · rw [added] at answer
          contradiction

end Orderly

/-- Turns of sessions that leave the lock to itself keep the order. -/
theorem Interleaved.orderly [DecidableEq ι] {s now : Store} {turns : List (Turn ι)}
    {current : ι → Script (Except MigrationError α)}
    (spares : ∀ i, (sessions i).attempt.run.Spares lock.collection)
    (run : Interleaved (fun i => (sessions i).script lock) s turns current now) :
    Orderly lock sessions s turns current now := by
  induction run with
  | start => exact .start
  | turn _ call ih => exact ih.turn (spares _) call

end Stepwise
