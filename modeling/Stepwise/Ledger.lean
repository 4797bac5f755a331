import Stepwise.Instant.Text
import Stepwise.Migration.Error
import Stepwise.Migration.Id

/-!
# The ledger

The ledger is the collection that records which migrations are applied: one document each, with the
identifier of the migration as its identifying value, the instant and the number of the run that
applied it, its batch. As identifying values are unique, no migration is recorded twice.
-/

namespace Stepwise

/-- The record of an applied migration. -/
structure LedgerEntry where
  id : String
  appliedAt : Instant
  batch : Int
deriving DecidableEq, Repr

namespace LedgerEntry

def document (entry : LedgerEntry) : Document :=
  [("_id", .str entry.id), ("migration_id", .str entry.id),
    ("applied_at", .str entry.appliedAt.storedText), ("batch", .num (.int entry.batch))]

/-- The failure of reading a document that lacks a valid field. -/
def invalid (document : Document) (field : String) : StoreError :=
  let id := match document.id? with
    | some id => id.json
    | none => ""
  .invalidDocument ("ledger document " ++ id ++ " has no valid '" ++ field ++ "'")

/-- The identifier that a document records: that of its own field, or its identifying value when
there is no such field. -/
def recordedId? (document : Document) : Option String :=
  match document.get? "migration_id" with
  | some value => value.str?
  | none => document.id?.bind Value.str?

def ofDocument (document : Document) : Except StoreError LedgerEntry :=
  match recordedId? document with
  | none => .error (invalid document "migration_id")
  | some id =>
    match ((document.get? "applied_at").bind Value.str?).bind Instant.parse? with
    | none => .error (invalid document "applied_at")
    | some appliedAt =>
      match (document.get? "batch").bind Value.int64? with
      | none => .error (invalid document "batch")
      | some batch => .ok { id, appliedAt, batch }

/-- The entries that documents record, ascending by identifier. -/
def ofDocuments (documents : List Document) : Except StoreError (List LedgerEntry) := do
  let entries ← documents.mapM ofDocument
  return entries.mergeSort fun a b => a.id ≤ b.id

def ids (entries : List LedgerEntry) : IdSet :=
  IdSet.ofList (entries.map (·.id))

/-- The greatest batch of entries, zero when there are none. -/
def latestBatch : List LedgerEntry → Int
  | [] => 0
  | entry :: rest => rest.foldl (fun batch entry => max batch entry.batch) entry.batch

end LedgerEntry

/-- The ledger in a collection. -/
structure Ledger where
  collection : String
deriving DecidableEq, Repr

namespace Ledger

/-- Read all entries, ascending by identifier. A missing collection has none. -/
def entries (ledger : Ledger) : Attempt MigrationError (List LedgerEntry) := do
  let documents ← Attempt.request .ledger (.find ledger.collection [])
  match LedgerEntry.ofDocuments documents with
  | .ok entries => return entries
  | .error cause => throw (.ledger cause)

def ids (ledger : Ledger) : Attempt MigrationError IdSet := do
  return LedgerEntry.ids (← ledger.entries)

def latestBatch (ledger : Ledger) : Attempt MigrationError Int := do
  return LedgerEntry.latestBatch (← ledger.entries)

/-- Why an entry could not be recorded. -/
def refusal (id : String) : StoreError → MigrationError
  | .duplicateKey .. => .duplicateApply id
  | cause => .ledger cause

def record (ledger : Ledger) (entry : LedgerEntry) : Attempt MigrationError Unit :=
  Attempt.request (refusal entry.id) (.insert ledger.collection entry.document)

/-- Remove the entry of a migration; it does no harm if there is none. -/
def erase (ledger : Ledger) (id : String) : Attempt MigrationError Unit := do
  let _ ← Attempt.request .ledger (.deleteFirst ledger.collection (.onId (.str id)))
  return ()

end Ledger

end Stepwise
