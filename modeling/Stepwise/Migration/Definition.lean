import Stepwise.Operation.Basic
import Stepwise.Text.Blank

/-!
# Definitions of migrations

A definition declares a migration by lists of operations. It is sound when its bodies agree with its
reversibility: what runs forward and is reversible also runs backward, and what is irreversible has
a reason and does not run backward.
-/

namespace Stepwise

/-- A migration declared by lists of operations. -/
structure Definition where
  id : String
  description : Option String := none
  reversibility : Reversibility := .reversible
  up : List Operation := []
  down : List Operation := []
deriving DecidableEq, Repr

namespace Definition

/-- Why a definition is not sound. -/
inductive Flaw where
  | noDown
  | noReason
  | downOfIrreversible
deriving DecidableEq, Repr

def Flaw.message : Flaw → String
  | .noDown => "reversible migration has no down operations; declare it irreversible with a reason"
  | .noReason => "irreversible migration must state a reason"
  | .downOfIrreversible => "irreversible migration must not define down operations"

def flaw? (d : Definition) : Option Flaw :=
  match d.reversibility with
  | .reversible => if d.down.isEmpty ∧ !d.up.isEmpty then some .noDown else none
  | .irreversible reason =>
    if Text.isBlankText reason then some .noReason
    else if !d.down.isEmpty then some .downOfIrreversible
    else none

/-- The definition made irreversible, its operations for running backward dropped. -/
def makeIrreversible (d : Definition) (reason : String) : Definition :=
  { d with reversibility := .irreversible reason, down := [] }

def operations (d : Definition) : Direction → List Operation
  | .up => d.up
  | .down => d.down

def toMigration (d : Definition) : Migration where
  id := d.id
  description := d.description
  reversibility := d.reversibility
  up := Operation.bodyAll d.up
  down := Operation.bodyAll d.down

end Definition

end Stepwise
