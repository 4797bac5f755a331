/-!
# Failures of a store

The causes for which a call to a store fails, and the text of each.
-/

namespace Stepwise

/-- Why a call to a store failed. -/
inductive StoreError where
  | collectionExists (collection : String)
  /-- `key` shows the values that are already taken. -/
  | duplicateKey (collection key : String)
  | indexNotFound (collection index : String)
  /-- There is an index of the name with other keys. -/
  | indexConflict (collection index : String)
  | invalidDocument (reason : String)
  | connection (reason : String)
  | backend (reason : String)
deriving DecidableEq, Repr

namespace StoreError

inductive Kind where
  | collectionExists
  | duplicateKey
  | indexNotFound
  | indexConflict
  | invalidDocument
  | connection
  | backend
deriving DecidableEq, Repr

def kind : StoreError → Kind
  | .collectionExists _ => .collectionExists
  | .duplicateKey .. => .duplicateKey
  | .indexNotFound .. => .indexNotFound
  | .indexConflict .. => .indexConflict
  | .invalidDocument _ => .invalidDocument
  | .connection _ => .connection
  | .backend _ => .backend

/-- The failure of a kind, about a collection and with a key, an index or a reason. -/
def ofKind (kind : Kind) (collection detail : String) : StoreError :=
  match kind with
  | .collectionExists => .collectionExists collection
  | .duplicateKey => .duplicateKey collection detail
  | .indexNotFound => .indexNotFound collection detail
  | .indexConflict => .indexConflict collection detail
  | .invalidDocument => .invalidDocument detail
  | .connection => .connection detail
  | .backend => .backend detail

def message : StoreError → String
  | .collectionExists collection => "Collection '" ++ collection ++ "' already exists"
  | .duplicateKey collection key => "Duplicate key in collection '" ++ collection ++ "': " ++ key
  | .indexNotFound collection index =>
    "Index '" ++ index ++ "' not found on collection '" ++ collection ++ "'"
  | .indexConflict collection index =>
    "Index '" ++ index ++ "' on collection '" ++ collection ++
      "' already exists with a different specification"
  | .invalidDocument reason => "Invalid document: " ++ reason
  | .connection reason => "Connection error: " ++ reason
  | .backend reason => "Backend error: " ++ reason

end StoreError

end Stepwise
