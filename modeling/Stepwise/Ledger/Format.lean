import Stepwise.Data
import Stepwise.Ledger

/-!
# The written form of ledger entries

Entries of the ledger as they stand in reports, with the instant in UTC, and read back from data
with an instant at any offset.
-/

namespace Stepwise.LedgerEntry

def toValue (entry : LedgerEntry) : Value :=
  .obj [("migration_id", .str entry.id), ("applied_at", .str entry.appliedAt.text),
    ("batch", .num (.int entry.batch))]

def ofData? (data : Data) : Option LedgerEntry := do
  let filled ← (← Record.ofData? data).read? ["migration_id", "applied_at", "batch"]
  let id ← filled.need? "migration_id" Data.text?
  let appliedAt ← filled.need? "applied_at" fun data => data.text?.bind Instant.parseLenient?
  let batch ← filled.need? "batch" Data.int64?
  return { id, appliedAt, batch }

end Stepwise.LedgerEntry
