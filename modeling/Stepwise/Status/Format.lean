import Stepwise.Ledger.Format
import Stepwise.Status

/-!
# The written form of reports on the status

A report lists its units as `entries` and its orphans as `orphaned`; the state of a unit is a record
that says by its `state` whether the unit is applied.
-/

namespace Stepwise

def UnitState.toValue : UnitState → Value
  | .pending => .obj [("state", .str "pending")]
  | .applied instant batch =>
    .obj [("state", .str "applied"), ("applied_at", .str instant.text),
      ("batch", .num (.int batch))]

def UnitStatus.toValue (unit : UnitStatus) : Value :=
  .obj [("id", .str unit.id), ("description", unit.description.elim .null .str),
    ("reversible", .bool unit.reversible), ("status", unit.state.toValue)]

def StatusReport.toValue (report : StatusReport) : Value :=
  .obj [("entries", .arr (report.units.map UnitStatus.toValue)),
    ("orphaned", .arr (report.orphans.map LedgerEntry.toValue))]

end Stepwise
