import Stepwise.Json.Data
import Stepwise.Operation.Format
import Stepwise.Sheet.Basic

/-!
# Sheets in JSON
-/

namespace Stepwise.Sheet

/-- The text of a string, or nothing for null. -/
def optionalText? : Data → Option (Option String)
  | .null => some none
  | data => data.text?.map some

def ofData? (data : Data) : Option Sheet := do
  let filled ← (← Record.ofData? data).read? places
  let description ← filled.orElse? "description" optionalText? none
  let reversible ← filled.orElse? "reversible" Data.flag? true
  let reason ← filled.orElse? "reason" optionalText? none
  let up ← filled.orElse? "up" (Data.list? Operation.ofData?) []
  let down ← filled.orElse? "down" (Data.list? Operation.ofData?) []
  return { description, reversible, reason, up, down }

def ofJson? (text : String) : Option Sheet :=
  (Json.readData? text).bind ofData?

end Stepwise.Sheet
