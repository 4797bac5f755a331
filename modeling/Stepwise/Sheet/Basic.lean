import Stepwise.Migration.Definition

/-!
# Sheets

A sheet is what a migration file says. The name of the file gives the identifier; a sheet and an
identifier make a definition if the sheet is sound.
-/

namespace Stepwise

/-- What a migration file says. -/
structure Sheet where
  description : Option String := none
  reversible : Bool := true
  reason : Option String := none
  up : List Operation := []
  down : List Operation := []
deriving DecidableEq, Repr

namespace Sheet

/-- Why a sheet does not define a migration. -/
inductive Fault where
  /-- The text does not follow the format. -/
  | malformed
  /-- The name of the file is no text. -/
  | namelessFile
  /-- A reason for a migration that is reversible. -/
  | needlessReason
  | unsound (flaw : Definition.Flaw)
deriving DecidableEq, Repr

def Fault.message : Fault → String
  | .malformed => "the text does not describe a migration"
  | .namelessFile => "file name is not valid UTF-8"
  | .needlessReason => "'reason' only applies to irreversible migrations"
  | .unsound flaw => flaw.message

def reversibility? (sheet : Sheet) : Except Fault Reversibility :=
  if sheet.reversible then
    if sheet.reason.isSome then .error .needlessReason else .ok .reversible
  else .ok (.irreversible (sheet.reason.getD ""))

/-- The definition that a sheet makes for an identifier. -/
def define (sheet : Sheet) (id : String) : Except Fault Definition := do
  let reversibility ← sheet.reversibility?
  let definition : Definition :=
    { id, description := sheet.description, reversibility, up := sheet.up, down := sheet.down }
  match definition.flaw? with
  | some flaw => throw (.unsound flaw)
  | none => return definition

def places : List String :=
  ["description", "reversible", "reason", "up", "down"]

end Sheet

end Stepwise
