import Stepwise.Store.Script
import Stepwise.Text.Quoted

/-!
# Migrations

A migration is one change of a database that runs forward and, if it is reversible, backward. Its
bodies are scripts of calls that may fail.
-/

namespace Stepwise

/-- Which of its bodies a migration runs. -/
inductive Direction where
  | up
  | down
deriving DecidableEq, Repr

def Direction.name : Direction → String
  | .up => "up"
  | .down => "down"

/-- Whether the effect of a migration can be undone. -/
inductive Reversibility where
  | reversible
  | irreversible (reason : String)
deriving DecidableEq, Repr

namespace Reversibility

def isReversible : Reversibility → Bool
  | .reversible => true
  | .irreversible _ => false

def shown : Reversibility → String
  | .reversible => "Reversible"
  | .irreversible reason => "Irreversible \x7b reason: " ++ Text.quoted reason ++ " \x7d"

end Reversibility

/-- What a migration does to a store. -/
abbrev Body := Attempt StoreError Unit

/-- One change of a database. -/
structure Migration where
  id : String
  description : Option String
  reversibility : Reversibility
  up : Body
  down : Body

namespace Migration

def body (m : Migration) : Direction → Body
  | .up => m.up
  | .down => m.down

def shown (m : Migration) : String :=
  "Migration \x7b id: " ++ Text.quoted m.id ++ ", reversibility: " ++ m.reversibility.shown ++
    " \x7d"

end Migration

end Stepwise
