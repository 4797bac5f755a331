import Stepwise.Proofs.Directory.Load
import Stepwise.Proofs.Lock.Holders
import Stepwise.Proofs.Lock.Serialisable

/-!
# Running under the lock changes nothing else

A command that runs up or down, and not dry, is refused if the lock is held. Otherwise it comes to
what its run comes to without the lock, whatever that is, and the lock is free again afterwards
(`Workspace.transparent`). What makes the difference between the two is one document in a collection
that neither the ledger nor the bodies of loaded migrations look at.
-/

namespace Stepwise

namespace Session

variable {α : Type} {lock : RunLock} {x : Session α} {holdings : List Holding} {s : Store}

/-- The lock as it is held in a session. -/
def holding (lock : RunLock) (x : Session α) : Holding :=
  ⟨lock.name, x.owner, x.taken⟩

/-- A session is refused if the lock is held, and told by whom. -/
theorem run_of_held {holder : Holding}
    (contents : s.collection lock.collection =
      { documents := holdings.map (·.document lock.collection) })
    (held : holdings.find? (·.name = lock.name) = some holder) :
    (x.script lock).run s =
      (.error (.lockHeld lock.name holder.owner holder.since.storedText), s.counted) := by
  have member := List.mem_of_find?_eq_some held
  have named := List.find?_some held
  rw [decide_eq_true_eq] at named
  obtain ⟨-, key, refused⟩ | ⟨free, -⟩ :=
    Holding.perform_insert contents lock.name x.owner x.taken
  · have told : Service.plain.run lock.held s.counted =
        (.lockHeld lock.name holder.owner holder.since.storedText, s.counted) :=
      Holding.run_held contents held
    have performed : s.perform (x.acquisition lock) =
        (.error (.duplicateKey lock.collection key), s.counted) := refused
    have asked : (x.script lock).run s = (Session.refused lock).run s.counted := by
      rw [script_eq, Script.run, Script.runWith, performed]
      rfl
    rw [asked, Session.refused, ← Service.run_plain, Service.run_bind, told]
    rfl
  · exact absurd (named ▸ List.mem_map_of_mem member) free

/-- A session that finds the lock free comes to what its attempt comes to without the lock, on a
store that is like the one that this leaves but for the document of the lock. The release may be
answered in any way. -/
theorem run_of_free {v : Service Store} (avoids : x.attempt.run.Avoids lock.collection)
    (contents : s.collection lock.collection =
      { documents := holdings.map (·.document lock.collection) })
    (free : lock.name ∉ holdings.map (·.name))
    (answered : ∀ s c, c ≠ x.release lock → v.perform s c = s.perform c) :
    ∃ middle, v.run (x.script lock) s =
        ((x.attempt.run.run s).1, (v.perform middle (x.release lock)).2) ∧
      Store.Agree (· ≠ lock.collection) True (x.attempt.run.run s).2 middle ∧
      middle.collection lock.collection =
        { documents := (holdings ++ [x.holding lock]).map (·.document lock.collection) } := by
  obtain ⟨held, -⟩ | ⟨-, taken⟩ := Holding.perform_insert contents lock.name x.owner x.taken
  · contradiction
  · let t := s.counted.put lock.collection
      { documents := (holdings ++ [x.holding lock]).map (·.document lock.collection) }
    have acquired : v.perform s (x.acquisition lock) = (.ok (), t) :=
      (answered s (x.acquisition lock) nofun).trans taken
    have apart : x.attempt.run.Calls (· ≠ x.release lock) := by
      refine avoids.mono fun c within => ?_
      rintro rfl
      exact within rfl
    have same : Store.Agree (· ≠ lock.collection) True s t := by
      refine ⟨fun name other => ?_, fun _ => rfl⟩
      rw [Store.get?_put, if_neg (Ne.symm other)]
      rfl
    obtain ⟨results, agree⟩ :=
      Script.Calls.agree_run (avoids.mono fun c within => ⟨within, .inl trivial⟩) same
    refine ⟨(x.attempt.run.run t).2, ?_, agree, ?_⟩
    · have begun : v.run (x.script lock) s = v.run (x.attempt.run >>= x.closing lock) t := by
        rw [script_eq, Service.run, Script.runWith, acquired]
        rfl
      rw [begun, Service.run_bind, Service.run_of_answered apart answered, results]
      rfl
    · have untouched := (Service.plain.get?_run (Script.spares_of_avoids avoids) t).1
      have kept : (x.attempt.run.run t).2.collection lock.collection =
          t.collection lock.collection := congrArg (·.getD {}) untouched
      rw [kept, Store.collection_put, if_pos rfl]

end Session

/-- The bodies of migrations that are loaded depend on no collection that they do not write to. -/
theorem Registry.avoids_of_spares {tree : FileTree} {directory : FileName}
    {registry : Registry} {name : String}
    (loaded : Directory.registry tree directory = .ok registry) (spares : registry.Spares name) :
    registry.Calls (·.Within (· ≠ name)) := by
  obtain ⟨ds, defined⟩ := Directory.exists_load loaded
  obtain ⟨-, -, same⟩ := Directory.perm_of_registry defined loaded
  intro m member direction
  obtain ⟨d, -, rfl⟩ := List.mem_map.mp (same.subset member)
  exact Definition.avoids_of_spares (spares _ member direction)

/-- A run of loaded migrations does not look at the lock. -/
theorem LockedRun.avoids_lock {config : Config} (valid : config.validate = .ok ())
    {run : LockedRun} (avoids : run.registry.Calls (·.Within (· ≠ config.lockCollection))) :
    (run.session config).attempt.run.Avoids config.lockCollection := by
  have apart := Config.ledger_ne_lock valid
  exact Migrator.calls_migrate ⟨apart, fun _ => apart, fun _ => apart⟩ avoids _ _

namespace Workspace

variable {w : Workspace} {registry : Registry} {s : Store}

/-- What a command comes to when its run has a result. -/
def shown (w : Workspace) (result : Except MigrationError RunReport) :
    Except CommandError Printed :=
  (result.mapError .migration).map (·.printed w.timing)

/-- The command comes to what its session comes to, whichever calls fail. -/
theorem run_command {σ : Type} (v : Service σ)
    (loaded : w.config.loadRegistry w.files = .ok registry) (target : RunTarget) (x : σ) :
    v.run (w.migrate target).run x =
      (w.shown (v.run ((w.lockedRun registry target).script w.config) x).1,
        (v.run ((w.lockedRun registry target).script w.config) x).2) := by
  rw [run_migrate loaded, Service.run_bind]
  rfl

/-- Taking the lock changes nothing else. While the lock is held, a command that runs up or down is
refused, told by whom, and changes no collection. Otherwise it comes to what its run comes to
without the lock, be that a report or a failure, and to the same collections; the locks are held
afterwards that were held before. If the release fails, the document of the lock stays, and that is
all. -/
theorem transparent {holdings : List Holding} (target : RunTarget)
    (valid : w.config.validate = .ok ())
    (loaded : w.config.loadRegistry w.files = .ok registry)
    (spared : registry.Spares w.config.lockCollection)
    (contents : s.collection w.config.lockCollection =
      { documents := holdings.map (·.document w.config.lockCollection) }) :
    let lock := w.config.lock
    let command := (w.migrate target).run
    let alone := ((w.config.migrator registry).migrate target w.runClock).run.run s
    (∀ holder, holdings.find? (·.name = lock.name) = some holder →
      (command.run s).1 =
        .error (.migration (.lockHeld lock.name holder.owner holder.since.storedText)) ∧
      (command.run s).2.collections = s.collections) ∧
    (lock.name ∉ holdings.map (·.name) →
      ((command.run s).1 = w.shown alone.1 ∧
        (∀ name ≠ lock.collection,
          (command.run s).2.collections.get? name = alone.2.collections.get? name) ∧
        (command.run s).2.collection lock.collection = s.collection lock.collection) ∧
      ∀ cause,
        let release : Call := .deleteFirst lock.collection (lock.filterOwned w.owner)
        let stuck := (Service.failing (· = release) cause).run command s
        stuck.1 = w.shown alone.1 ∧
        (∀ name ≠ lock.collection,
          stuck.2.collections.get? name = alone.2.collections.get? name) ∧
        stuck.2.collection lock.collection = { documents :=
          (s.collection lock.collection).documents ++ [lock.document w.owner (w.clock 0)] }) := by
  intro lock command alone
  let x := (w.lockedRun registry target).session w.config
  have avoids : x.attempt.run.Avoids lock.collection :=
    LockedRun.avoids_lock valid (Registry.avoids_of_spares loaded spared)
  have whole (v : Service Store) : v.run command s =
      (w.shown (v.run (x.script lock) s).1, (v.run (x.script lock) s).2) :=
    run_command v loaded target s
  change s.collection lock.collection = _ at contents
  constructor
  · intro holder held
    have refused : Service.plain.run (x.script lock) s = _ := Session.run_of_held contents held
    have ran := whole .plain
    rw [refused] at ran
    rw [← Service.run_plain, ran]
    exact ⟨rfl, rfl⟩
  · intro free
    constructor
    · obtain ⟨middle, ran, agree, taken⟩ :=
        Session.run_of_free (v := .plain) avoids contents free fun _ _ _ => rfl
      have released : (middle.perform (x.release lock)).2 = middle.counted.put lock.collection
          { documents := holdings.map (·.document lock.collection) } :=
        Holding.perform_release taken free
      have after := whole .plain
      rw [ran, Service.perform_plain, released] at after
      rw [← Service.run_plain, after]
      refine ⟨rfl, fun name other => ?_, ?_⟩
      · rw [Store.get?_put, if_neg (Ne.symm other)]
        exact (agree.get? name other).symm
      · rw [Store.collection_put, if_pos rfl]
        exact contents.symm
    · intro cause release stuck
      have answered (t : Store) (c : Call) (other : c ≠ release) :
          (Service.failing (· = release) cause).perform t c = t.perform c := by
        rw [Service.perform_failing, decide_eq_false other, if_neg Bool.false_ne_true]
      obtain ⟨middle, ran, agree, taken⟩ := Session.run_of_free avoids contents free answered
      have failed : (Service.failing (· = release) cause).perform middle (x.release lock) =
          (.error cause, middle) := by
        rw [Service.perform_failing]
        exact if_pos (decide_eq_true rfl)
      have after : stuck = _ := whole _
      rw [ran, failed] at after
      rw [after]
      refine ⟨rfl, fun name other => (agree.get? name other).symm, ?_⟩
      rw [taken, contents, List.map_append]
      rfl

/-- The text of a migration that creates a collection. -/
def usersText : String :=
  "up:\n- op: create_collection\n  collection: users\n" ++
    "down:\n- op: drop_collection\n  collection: users\n"

def users : Workspace where
  config := {}
  files := ⟨.directory [(FileName.ofString "migrations", .directory
    [(FileName.ofString "20250101-users.yaml", .file (Text.Utf8.encode usersText))])]⟩
  clock := fun _ => ⟨⟨2025, 1, 3⟩, 8, 0, 0, 0⟩
  owner := "deployer"

/-- The registry of the workspace has the one migration. -/
theorem loaded_users : users.config.loadRegistry users.files =
    .ok (Registry.empty.insert (Definition.creating "20250101-users" "users").toMigration) := by
  let directory := FileName.ofString "migrations"
  let file := FileName.ofString "20250101-users.yaml"
  have located : users.files.locate directory = .ok [directory] := by
    simp only [directory, FileName.ofString, Text.Utf8.encode_eq]
    decide +kernel
  have listed : users.files.list directory = .ok [(file, .file (Text.Utf8.encode usersText))] := by
    refine FileTree.list_eq_ok_iff.mpr ⟨_, located, ?_⟩
    simp [users, directory, FileNode.at?, FileNode.entry?, FileNode.entries]
    rfl
  have migration : Directory.isMigrationName file = true := by
    simp only [file, Directory.isMigrationName, Directory.extensions, FileName.ofString,
      Text.Utf8.encode_eq]
    decide +kernel
  have stem : (directory.join file).stem? = some (FileName.ofString "20250101-users") := by
    simp only [directory, file, FileName.ofString, Text.Utf8.encode_eq]
    decide +kernel
  have extension : (directory.join file).extension? ≠ some (FileName.ofString "json") := by
    simp only [directory, file, FileName.ofString, Text.Utf8.encode_eq]
    decide +kernel
  have parsed : Directory.parse (directory.join file) (Text.Utf8.encode usersText) =
      .ok (Definition.creating "20250101-users" "users") := by
    refine (Directory.parse_encode stem extension).mpr
      ⟨{ up := [.createCollection "users"], down := [.dropCollection "users"] }, ?_, ?_⟩
    · decide +kernel
    · decide +kernel
  have loaded := (Directory.load_eq listed).trans (Directory.definitions_singleton migration parsed)
  rw [Config.loadRegistry, Directory.registry]
  change Directory.load users.files directory >>= _ = _
  rw [loaded]
  rfl

def lockedStore (holding : Holding) : Store :=
  .after [.insert "docshift_locks" (holding.document "docshift_locks")]

private theorem collection_lockedStore (holding : Holding) :
    (lockedStore holding).collection "docshift_locks" =
      { documents := [holding].map (·.document "docshift_locks") } := by
  have none : ({} : Store).collection "docshift_locks" =
      { documents := ([] : List Holding).map (·.document "docshift_locks") } := rfl
  obtain ⟨held, -⟩ | ⟨-, taken⟩ :=
    Holding.perform_insert none holding.name holding.owner holding.since
  · contradiction
  · have after : lockedStore holding = _ := congrArg Prod.snd taken
    rw [after, Store.collection_put, if_pos rfl]
    rfl

theorem transparent_users :
    let since : Instant := ⟨⟨2025, 1, 2⟩, 8, 0, 0, 0⟩
    let taken := lockedStore ⟨"migrations", "somebody", since⟩
    let free := lockedStore ⟨"others", "somebody", since⟩
    let registry := Registry.empty.insert (Definition.creating "20250101-users" "users").toMigration
    let command := (users.migrate (.up .all)).run
    let alone := ((users.config.migrator registry).migrate (.up .all) users.runClock).run.run free
    (∀ target, ((users.migrate target).run.run taken).1 =
      .error (.migration (.lockHeld "migrations" "somebody" since.storedText))) ∧
    alone.1.toOption.map (·.completed) = some ["20250101-users"] ∧
    (command.run free).1 = users.shown alone.1 ∧
    (command.run free).2.collections.get? "users" = alone.2.collections.get? "users" ∧
    (command.run free).2.collection "docshift_locks" = free.collection "docshift_locks" := by
  intro since taken free registry command alone
  have valid : users.config.validate = .ok () := by decide +kernel
  have spared : registry.Spares "docshift_locks" := by
    intro m member direction
    obtain rfl := List.mem_singleton.mp member
    exact Script.spares_of_avoids (Definition.avoids_creating (by decide) direction)
  have refused (target : RunTarget) :=
    (transparent target valid loaded_users spared
      (collection_lockedStore ⟨"migrations", "somebody", since⟩)).1 _ rfl
  have ran := (transparent (.up .all) valid loaded_users spared
    (collection_lockedStore ⟨"others", "somebody", since⟩)).2 (by decide)
  obtain ⟨⟨result, collections, locks⟩, -⟩ := ran
  refine ⟨fun target => (refused target).1, ?_, result, collections "users" (by decide), locks⟩
  decide +kernel

end Workspace

end Stepwise
