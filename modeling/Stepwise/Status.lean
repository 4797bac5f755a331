import Stepwise.Migrator

/-!
# Status

The status of a database tells of every migration of the registry whether it is applied, and lists
the entries of the ledger for which the registry has no migration, the orphans.
-/

namespace Stepwise

inductive UnitState where
  | pending
  | applied (instant : Instant) (batch : Int)
deriving DecidableEq, Repr

namespace UnitState

/-- The state that an entry of the ledger gives, or its absence. -/
def ofEntry : Option LedgerEntry → UnitState
  | none => .pending
  | some entry => .applied entry.appliedAt entry.batch

def isApplied : UnitState → Bool
  | .pending => false
  | .applied .. => true

def appliedAt? : UnitState → Option Instant
  | .pending => none
  | .applied instant _ => some instant

end UnitState

structure UnitStatus where
  id : String
  description : Option String
  reversible : Bool
  state : UnitState
deriving DecidableEq, Repr

structure StatusReport where
  /-- One for each migration of the registry, ascending. -/
  units : List UnitStatus
  /-- The entries without migration, ascending. -/
  orphans : List LedgerEntry
deriving DecidableEq, Repr

namespace StatusReport

def get? (report : StatusReport) (id : String) : Option UnitStatus :=
  report.units.find? (·.id = id)

def appliedIds (report : StatusReport) : List String :=
  (report.units.filter (·.state.isApplied)).map (·.id)

def pendingIds (report : StatusReport) : List String :=
  (report.units.filter (!·.state.isApplied)).map (·.id)

/-- The status that the entries of a ledger give to the migrations of a registry. -/
def ofEntries (registry : Registry) (entries : List LedgerEntry) : StatusReport :=
  let byId := SortedMap.ofList (entries.map fun entry => (entry.id, entry))
  { units := registry.migrations.map fun m =>
      { id := m.id
        description := m.description
        reversible := m.reversibility.isReversible
        state := .ofEntry (byId.get? m.id) }
    orphans := (byId.entries.filter fun (id, _) => !registry.contains id).map (·.2) }

end StatusReport

def Migrator.status (migrator : Migrator) : Attempt MigrationError StatusReport := do
  return .ofEntries migrator.registry (← migrator.ledger.entries)

end Stepwise
