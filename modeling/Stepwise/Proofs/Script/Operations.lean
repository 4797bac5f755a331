import Stepwise.Migration.Definition
import Stepwise.Proofs.Script.Calls

/-!
# The calls of operations

The body of a migration that is declared by operations only writes, only to the collections that
they name, and inserts no documents but theirs (`Definition.calls_operations`). So it depends on
these collections, and changes no others.
-/

namespace Stepwise

namespace Operation

def inserted : Operation → List Document
  | .insertDocuments _ documents => documents
  | _ => []

/-- Whether an operation may make a call: the call writes to the collection that the operation names
and inserts nothing but one of its documents. -/
structure Allows (operation : Operation) (c : Call) : Prop where
  write : c.isWrite = true
  named : c.collection = operation.collection
  inserted : ∀ name document, c = .insert name document → document ∈ operation.inserted

variable {p : Call → Prop}

theorem calls_attempt {c : Call} (kind : p c) : (Operation.attempt c).run.Calls p :=
  Attempt.calls_bind (Attempt.calls_request kind) fun _ => trivial

private theorem calls_insertAll {name : String} {documents : List Document}
    (kind : ∀ document ∈ documents, p (.insert name document)) :
    (insertAll name documents).run.Calls p := by
  induction documents with
  | nil => trivial
  | cons document rest ih =>
    obtain ⟨first, others⟩ := List.forall_mem_cons.mp kind
    exact Attempt.calls_bind (calls_attempt first) fun _ => ih others

/-- An operation makes no calls but those that it may make. -/
theorem calls_body {operation : Operation} (kind : ∀ c, operation.Allows c → p c) :
    operation.body.run.Calls p := by
  cases operation with
  | insertDocuments name documents =>
    apply calls_insertAll
    intro document member
    apply kind
    refine ⟨rfl, rfl, fun _ _ same => ?_⟩
    cases same
    exact member
  | updateDocuments name filter update =>
    rw [body]
    split
    · trivial
    · exact calls_attempt (kind _ ⟨rfl, rfl, nofun⟩)
  | _ => exact calls_attempt (kind _ ⟨rfl, rfl, nofun⟩)

private theorem calls_bodyAll {operations : List Operation}
    (kind : ∀ operation ∈ operations, ∀ c, operation.Allows c → p c) :
    (bodyAll operations).run.Calls p := by
  induction operations with
  | nil => trivial
  | cons operation rest ih =>
    obtain ⟨first, others⟩ := List.forall_mem_cons.mp kind
    exact Attempt.calls_bind (calls_body first) fun _ => ih others

end Operation

namespace Definition

variable {d : Definition} {direction : Direction}

theorem calls_operations {p : Call → Prop}
    (kind : ∀ operation ∈ d.operations direction, ∀ c, operation.Allows c → p c) :
    (d.toMigration.body direction).run.Calls p := by
  cases direction with
  | up => exact Operation.calls_bodyAll kind
  | down => exact Operation.calls_bodyAll kind

/-- A declared migration depends on the collections that its operations name, and on no others. -/
theorem calls_body {seen : String → Prop}
    (named : ∀ operation ∈ d.operations direction, seen operation.collection) :
    (d.toMigration.body direction).run.Calls (·.Within seen) := by
  refine calls_operations fun operation member c allowed => ?_
  apply Call.within_of_isWrite allowed.write
  rw [allowed.named]
  exact named operation member

/-- A declared migration does nothing but write: it depends on no collection that it does not write
to. -/
theorem avoids_of_spares {name : String}
    (spares : (d.toMigration.body direction).run.Spares name) :
    (d.toMigration.body direction).run.Avoids name := by
  have writes : (d.toMigration.body direction).run.Calls (·.isWrite = true) :=
    calls_operations fun _ _ _ allowed => allowed.write
  refine (writes.and spares).mono fun c kind => ?_
  exact Call.within_of_isWrite kind.1 (kind.2 kind.1)

end Definition

/-- The migration that creates a collection, and drops it when undone. -/
def Definition.creating (id name : String) : Definition where
  id := id
  up := [.createCollection name]
  down := [.dropCollection name]

theorem Definition.avoids_creating {id name other : String} (different : name ≠ other)
    (direction : Direction) :
    ((creating id name).toMigration.body direction).run.Avoids other := by
  refine calls_body fun operation member => ?_
  cases direction with
  | up =>
    obtain rfl := List.mem_singleton.mp member
    exact different
  | down =>
    obtain rfl := List.mem_singleton.mp member
    exact different

end Stepwise
