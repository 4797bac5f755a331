import Stepwise.Migration.Basic

/-!
# Operations

The declarative steps that the bodies of migration files are made of.
-/

namespace Stepwise

/-- One declarative step. -/
inductive Operation where
  | createCollection (collection : String)
  | dropCollection (collection : String)
  | createIndex (collection : String) (index : Index)
  | dropIndex (collection name : String)
  | insertDocuments (collection : String) (documents : List Document)
  | updateDocuments (collection : String) (filter : Filter) (update : Update)
  | deleteDocuments (collection : String) (filter : Filter)
deriving DecidableEq, Repr

namespace Operation

def collection : Operation → String
  | .createCollection name | .dropCollection name | .createIndex name _ | .dropIndex name _
  | .insertDocuments name _ | .updateDocuments name _ _ | .deleteDocuments name _ => name

/-- The attempt of one call whose answer does not matter. -/
def attempt (c : Call) : Body := do
  let _ ← Attempt.request id c
  return ()

/-- Insert documents in order, until one fails. -/
def insertAll (collection : String) : List Document → Body
  | [] => return ()
  | document :: rest => do
    attempt (.insert collection document)
    insertAll collection rest

/-- What an operation does. An update that neither sets nor unsets anything always fails. -/
def body : Operation → Body
  | .createCollection name => attempt (.createCollection name)
  | .dropCollection name => attempt (.dropCollection name)
  | .createIndex name index => attempt (.createIndex name index)
  | .dropIndex name index => attempt (.dropIndex name index)
  | .insertDocuments name documents => insertAll name documents
  | .updateDocuments name filter update =>
    if update.isEmpty then
      throw (.invalidDocument ("update on '" ++ name ++ "' sets and unsets nothing"))
    else attempt (.update name filter update)
  | .deleteDocuments name filter => attempt (.delete name filter)

/-- What a list of operations does: one after the other, until one fails. -/
def bodyAll : List Operation → Body
  | [] => return ()
  | operation :: rest => do
    operation.body
    bodyAll rest

def summary : Operation → String
  | .createCollection name => "create collection " ++ name
  | .dropCollection name => "drop collection " ++ name
  | .createIndex name index => "create index " ++ index.name ++ " on " ++ name
  | .dropIndex name index => "drop index " ++ index ++ " on " ++ name
  | .insertDocuments name documents =>
    "insert " ++ toString documents.length ++ " document(s) into " ++ name
  | .updateDocuments name _ _ => "update documents in " ++ name
  | .deleteDocuments name _ => "delete documents from " ++ name

end Operation

end Stepwise
