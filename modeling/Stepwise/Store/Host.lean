import Stepwise.Store.Script

/-!
# A store with faults

A host answers the calls of scripts from a store, but lets some of them fail before they reach it.
Every fault concerns the calls of one method, on one collection or on all; it lets a number of them
pass and then fails the next ones, a number of times or for ever. Of several faults that concern a
call, the first that can still strike decides.
-/

namespace Stepwise

namespace Call

inductive Method where
  | createCollection
  | dropCollection
  | listCollections
  | insert
  | update
  | delete
  | deleteFirst
  | find
  | createIndex
  | dropIndex
  | listIndexes
deriving DecidableEq, Repr

def method : Call → Method
  | .createCollection _ => .createCollection
  | .dropCollection _ => .dropCollection
  | .listCollections => .listCollections
  | .insert .. => .insert
  | .update .. => .update
  | .delete .. => .delete
  | .deleteFirst .. => .deleteFirst
  | .find .. => .find
  | .createIndex .. => .createIndex
  | .dropIndex .. => .dropIndex
  | .listIndexes _ => .listIndexes

end Call

/-- Calls that fail without reaching the store. -/
structure Fault where
  method : Call.Method
  /-- The collection concerned; all of them when none is given. -/
  collection : Option String
  /-- What the failure is. -/
  kind : StoreError.Kind
  detail : String
  /-- The number of calls that pass first. -/
  skip : Nat
  /-- The number of times it can still strike; without bound when none is given. -/
  times : Option Nat
deriving DecidableEq, Repr

namespace Fault

/-- Whether the fault decides about the call. -/
def concerns (fault : Fault) (c : Call) : Bool :=
  fault.method = c.method && fault.collection.all (· = c.collection) && fault.times ≠ some 0

/-- What the fault does to a call that it decides about, and the fault that is left. -/
def strike (fault : Fault) (c : Call) : Option StoreError × Fault :=
  if 0 < fault.skip then (none, { fault with skip := fault.skip - 1 })
  else
    (some (.ofKind fault.kind c.collection fault.detail),
      { fault with times := fault.times.map (· - 1) })

/-- What a list of faults does to a call, and the faults that are left. -/
def strikeFirst (c : Call) : List Fault → Option StoreError × List Fault
  | [] => (none, [])
  | fault :: rest =>
    if fault.concerns c then
      let (failure, fault) := fault.strike c
      (failure, fault :: rest)
    else
      let (failure, rest) := strikeFirst c rest
      (failure, fault :: rest)

end Fault

/-- A store whose calls may fail before they reach it. -/
structure Host where
  store : Store := {}
  faults : List Fault := []
deriving DecidableEq

namespace Host

def perform (h : Host) (c : Call) : Except StoreError c.Answer × Host :=
  match Fault.strikeFirst c h.faults with
  | (some failure, faults) => (.error failure, { h with faults })
  | (none, faults) =>
    let (answer, store) := h.store.perform c
    (answer, { store, faults })

def run {α : Type} (h : Host) (script : Script α) : α × Host :=
  script.runWith perform h

end Host

end Stepwise
