import Stepwise.Registry

/-!
# Plans

A plan lists the migrations that a run goes through, in order. It is computed from the registry and
the identifiers in the ledger. Going up takes what is not applied, ascending; going down takes the
greatest of what is applied, descending, and is refused when one of those cannot be undone.
-/

namespace Stepwise

/-- How far a run goes up. -/
inductive UpTarget where
  /-- Everything that is pending. -/
  | all
  /-- What is pending up to the identifier, which is included. -/
  | to (id : String)
deriving DecidableEq, Repr

/-- How far a run goes down. -/
inductive DownTarget where
  /-- The greatest identifiers that are applied, as many as the number says. -/
  | count (n : Nat)
  /-- What is applied down to the identifier, which is left out. -/
  | to (id : String)
deriving DecidableEq, Repr

/-- The migrations that a run goes through, in order. -/
structure Plan where
  direction : Direction
  steps : List Migration

namespace Plan

def ids (p : Plan) : List String :=
  p.steps.map (·.id)

/-- The pending migrations of an ascending list, up to a limit if there is one. -/
def pending (migrations : List Migration) (applied : IdSet) (limit : Option String) :
    List Migration :=
  migrations.filter fun m => limit.all (m.id ≤ ·) && !applied.contains m.id

def up (registry : Registry) (applied : IdSet) (target : UpTarget) : Except MigrationError Plan :=
  match target with
  | .all => .ok ⟨.up, pending registry.migrations applied none⟩
  | .to id =>
    if registry.contains id then .ok ⟨.up, pending registry.migrations applied (some id)⟩
    else .error (.unknownTarget id)

/-- The applied identifiers that a run down is about, greatest first. -/
def selected (applied : IdSet) : DownTarget → List String
  | .count n => applied.names.reverse.take n
  | .to id => applied.names.reverse.takeWhile (id < ·)

/-- The migration of an applied identifier, if it can be undone. -/
def revertible (registry : Registry) (id : String) : Except MigrationError Migration :=
  match registry.get? id with
  | none => .error (.missingUnit id)
  | some m =>
    match m.reversibility with
    | .reversible => .ok m
    | .irreversible reason => .error (.irreversible id reason)

/-- Whether a run down can have the target: an identifier has to be known or applied. -/
def isKnown (registry : Registry) (applied : IdSet) : DownTarget → Bool
  | .count _ => true
  | .to id => registry.contains id || applied.contains id

def down (registry : Registry) (applied : IdSet) (target : DownTarget) :
    Except MigrationError Plan :=
  match target, isKnown registry applied target with
  | .to id, false => .error (.unknownTarget id)
  | _, _ => do
    let steps ← (selected applied target).mapM (revertible registry)
    return ⟨.down, steps⟩

end Plan

end Stepwise
