import Stepwise.Store.Basic

/-!
# Scripts of calls

A `Call` is one atomic step of a store, and a `Script` is a program that makes calls and goes on
from their answers. What a migration does to a database, and every reading and writing of the ledger
and the run lock, is a script, so any way of answering calls runs them: a store, a store whose calls
fail at will, or several scripts taking turns on one store. `runWith_bind` says that running a
sequence is running its parts one after the other.
-/

namespace Stepwise

/-- One atomic step of a store. -/
inductive Call where
  | createCollection (collection : String)
  | dropCollection (collection : String)
  | listCollections
  | insert (collection : String) (document : Document)
  | update (collection : String) (filter : Filter) (update : Update)
  | delete (collection : String) (filter : Filter)
  | deleteFirst (collection : String) (filter : Filter)
  | find (collection : String) (filter : Filter)
  | createIndex (collection : String) (index : Index)
  | dropIndex (collection : String) (index : String)
  | listIndexes (collection : String)
deriving DecidableEq, Repr

namespace Call

/-- What a call answers when it succeeds. -/
abbrev Answer : Call → Type
  | .createCollection _ => Unit
  | .dropCollection _ => Unit
  | .listCollections => List String
  | .insert .. => Unit
  | .update .. => Nat
  | .delete .. => Nat
  | .deleteFirst .. => Bool
  | .find .. => List Document
  | .createIndex .. => Unit
  | .dropIndex .. => Unit
  | .listIndexes _ => List Index

/-- The collection that a call is about; listing the collections is about none. -/
def collection : Call → String
  | .createCollection name | .dropCollection name | .insert name _ | .update name _ _
  | .delete name _ | .deleteFirst name _ | .find name _ | .createIndex name _ | .dropIndex name _
  | .listIndexes name => name
  | .listCollections => ""

def isWrite : Call → Bool
  | .listCollections | .find .. | .listIndexes _ => false
  | _ => true

end Call

def Store.perform (s : Store) : (call : Call) → Except StoreError call.Answer × Store
  | .createCollection name => s.createCollection name
  | .dropCollection name => s.dropCollection name
  | .listCollections => s.listCollections
  | .insert name document => s.insert name document
  | .update name filter change => s.update name filter change
  | .delete name filter => s.delete name filter
  | .deleteFirst name filter => s.deleteFirst name filter
  | .find name filter => s.find name filter
  | .createIndex name index => s.createIndex name index
  | .dropIndex name index => s.dropIndex name index
  | .listIndexes name => s.listIndexes name

/-- A program that makes calls and goes on from their answers. -/
inductive Script (α : Type) : Type where
  | done (result : α)
  | call (c : Call) (next : Except StoreError c.Answer → Script α)

namespace Script

variable {α β σ : Type}

/-- One script and then the one that its result gives. -/
def bind : Script α → (α → Script β) → Script β
  | .done result, f => f result
  | .call c next, f => .call c fun answer => (next answer).bind f

instance : Monad Script where
  pure := .done
  bind := bind

/-- The script of one call. -/
def request (c : Call) : Script (Except StoreError c.Answer) :=
  .call c .done

def runWith (perform : σ → (c : Call) → Except StoreError c.Answer × σ) : Script α → σ → α × σ
  | .done result, s => (result, s)
  | .call c next, s =>
    let (answer, s) := perform s c
    (next answer).runWith perform s

def run (script : Script α) (s : Store) : α × Store :=
  script.runWith Store.perform s

/-- A sequence runs as its parts, one after the other. -/
theorem runWith_bind (perform : σ → (c : Call) → Except StoreError c.Answer × σ)
    (script : Script α) (f : α → Script β) (s : σ) :
    (script >>= f).runWith perform s =
      (f (script.runWith perform s).1).runWith perform (script.runWith perform s).2 := by
  induction script generalizing s with
  | done result => rfl
  | call c next ih => exact ih _ _

instance : LawfulMonad Script := by
  refine LawfulMonad.mk' Script (fun script => ?_) (fun _ _ => rfl) (fun script f g => ?_)
  · induction script with
    | done result => rfl
    | call c next ih => exact congrArg (Script.call c) (funext ih)
  · induction script with
    | done result => rfl
    | call c next ih => exact congrArg (Script.call c) (funext ih)

end Script

/-- A script that may fail for a reason of type `ε`. -/
abbrev Attempt (ε α : Type) := ExceptT ε Script α

namespace Attempt

variable {ε : Type}

/-- The attempt of one call, its failure turned into a reason. -/
def request (reason : StoreError → ε) (c : Call) : Attempt ε c.Answer :=
  ExceptT.mk do return (← Script.request c).mapError reason

/-- The attempt that makes no call and has the result. -/
def ofResult {α : Type} (result : Except ε α) : Attempt ε α :=
  ExceptT.mk (return result)

end Attempt

end Stepwise
