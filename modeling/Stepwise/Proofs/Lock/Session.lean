import Stepwise.Proofs.Script.Calls
import Stepwise.Proofs.Script.Interleaving
import Stepwise.RunLock

/-!
# Sessions under the run lock

A session is an attempt that an owner makes while holding the lock. Its script begins with taking
the lock (`Session.script_eq`); if that is refused, all that follows is a look at who holds the lock
(`Session.Waiting`), otherwise the attempt and the release.
-/

namespace Stepwise

/-- An attempt that an owner makes while holding the lock. -/
structure Session (α : Type) where
  owner : String
  /-- When the owner asks for the lock. -/
  taken : Instant
  attempt : Attempt MigrationError α

namespace Session

variable {α : Type}

def script (lock : RunLock) (x : Session α) : Script (Except MigrationError α) :=
  (lock.during x.owner x.taken x.attempt).run

def acquisition (lock : RunLock) (x : Session α) : Call :=
  .insert lock.collection (lock.document x.owner x.taken)

def release (lock : RunLock) (x : Session α) : Call :=
  .deleteFirst lock.collection (lock.filterOwned x.owner)

/-- The end of a session whose attempt has a result. -/
def closing (lock : RunLock) (x : Session α) (result : Except MigrationError α) :
    Script (Except MigrationError α) :=
  .call (x.release lock) fun _ => .done result

/-- What is left of a session that is refused because the lock is held. -/
def refused (lock : RunLock) : Script (Except MigrationError α) :=
  lock.held >>= fun reason => .done (.error reason)

/-- A session takes the lock, and only if it gets it makes the attempt and releases the lock. -/
theorem script_eq (lock : RunLock) (x : Session α) :
    x.script lock = .call (x.acquisition lock) fun
      | .ok () => x.attempt.run >>= x.closing lock
      | .error (.duplicateKey ..) => refused lock
      | .error cause => .done (.error (.store cause)) := by
  refine congrArg (Script.call _) (funext fun answer => ?_)
  cases answer with
  | error cause => cases cause <;> rfl
  | ok _ =>
    -- What the release answers is dropped.
    refine congrArg (x.attempt.run.bind ·) (funext fun result => congrArg (Script.call _) ?_)
    funext released
    cases released <;> rfl

/-- The lock is taken unless its document is there already; a refusal changes nothing. -/
theorem perform_acquisition (lock : RunLock) (x : Session α) (s : Store) :
    (∃ key, s.perform (x.acquisition lock) =
      (.error (.duplicateKey lock.collection key), s.counted)) ∨
    ((s.collection lock.collection).hasId (.str lock.name) = false ∧
      s.perform (x.acquisition lock) = (.ok (), s.counted.put lock.collection
        { s.collection lock.collection with
          documents := (s.collection lock.collection).documents ++
            [lock.document x.owner x.taken] })) := by
  have own : (lock.document x.owner x.taken).id? = some (.str lock.name) := rfl
  simp only [acquisition, Store.perform]
  rw [Store.insert_of_id? own]
  obtain ⟨-, key, refused⟩ | ⟨free, -, added⟩ := s.counted.add_cases lock.collection
    (.str lock.name) (lock.document x.owner x.taken)
  · exact .inl ⟨key, refused⟩
  · exact .inr ⟨free, added⟩

/-- What is left of a session that never got the lock. -/
inductive Waiting (lock : RunLock) (x : Session α) : Script (Except MigrationError α) → Prop
  | outside : Waiting lock x (x.script lock)
  | reading : Waiting lock x (refused lock)
  | refused (owner since : String) :
      Waiting lock x (.done (.error (.lockHeld lock.name owner since)))

end Session

end Stepwise
