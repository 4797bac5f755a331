import Stepwise.Instant.Text
import Stepwise.Migration.Error

/-!
# The run lock

A lock is a document whose identifying value is the name of the lock. Inserting it takes the lock,
and as identifying values are unique, only one owner at a time can do so. Releasing it deletes the
document of that owner; forcing it deletes whatever document has the name.
-/

namespace Stepwise

/-- A lock of a name, in a collection. -/
structure RunLock where
  collection : String
  name : String
deriving DecidableEq, Repr

namespace RunLock

def document (lock : RunLock) (owner : String) (now : Instant) : Document :=
  [("_id", .str lock.name), ("owner", .str owner), ("acquired_at", .str now.storedText)]

def filter (lock : RunLock) : Filter :=
  .onId (.str lock.name)

/-- The filter of the lock's document while the owner holds it. -/
def filterOwned (lock : RunLock) (owner : String) : Filter :=
  lock.filter ++ [("owner", .str owner)]

/-- The text in a field of the document that holds the lock. -/
def shownField (holder : Option Document) (field : String) : String :=
  ((holder.bind (·.get? field)).bind Value.str?).getD "unknown"

def held (lock : RunLock) : Script MigrationError := do
  let holder := match ← Script.request (.find lock.collection lock.filter) with
    | .ok documents => documents.head?
    | .error _ => none
  return .lockHeld lock.name (shownField holder "owner") (shownField holder "acquired_at")

/-- Take the lock for an owner. -/
def acquire (lock : RunLock) (owner : String) (now : Instant) : Attempt MigrationError Unit :=
  ExceptT.mk do
    match ← Script.request (.insert lock.collection (lock.document owner now)) with
    | .ok () => return .ok ()
    | .error (.duplicateKey ..) => return .error (← lock.held)
    | .error cause => return .error (.store cause)

/-- Release the lock if the owner holds it. -/
def release (lock : RunLock) (owner : String) : Attempt MigrationError Unit := do
  let _ ← Attempt.request .store (.deleteFirst lock.collection (lock.filterOwned owner))
  return ()

/-- Release the lock, whoever holds it, answering whether it was held. -/
def force (lock : RunLock) : Attempt MigrationError Bool :=
  Attempt.request .store (.deleteFirst lock.collection lock.filter)

/-- Run an attempt while the owner holds the lock. The lock is released however the attempt ends; a
failure to release it does not change the result. -/
def during {α : Type} (lock : RunLock) (owner : String) (now : Instant)
    (attempt : Attempt MigrationError α) : Attempt MigrationError α := do
  lock.acquire owner now
  ExceptT.mk do
    let result ← attempt.run
    let _ ← (lock.release owner).run
    return result

end RunLock

end Stepwise
