import Stepwise.Store.Collection
import Stepwise.Store.Error

/-!
# The store

A store holds collections by name. Each of its calls is one atomic step: it answers or fails, and
leaves a store either way. Calls that may change something are counted. Inserting a document and
creating an index open the collection first, so a collection comes into being with its first
document or index. A store is part of the program and does not outlast it; stores on a server are
left out.
-/

namespace Stepwise

/-- Collections by name. -/
structure Store where
  collections : SortedMap Collection := ∅
  /-- The number of calls so far that may change something. -/
  writes : Nat := 0
  /-- The number of identifying values given to documents without one. -/
  issued : Nat := 0
deriving DecidableEq

namespace Store

instance : Inhabited Store := ⟨{}⟩

/-- What a call leaves: its answer or failure, and the store. -/
abbrev Outcome (α : Type) := Except StoreError α × Store

/-- The store after one more call that may change something. -/
def counted (s : Store) : Store :=
  { s with writes := s.writes + 1 }

/-- The collection of a name; one that does not exist is empty. -/
def collection (s : Store) (name : String) : Collection :=
  (s.collections.get? name).getD {}

def put (s : Store) (name : String) (c : Collection) : Store :=
  { s with collections := s.collections.insert name c }

/-- The store in which the collection exists. -/
def opened (s : Store) (name : String) : Store :=
  s.put name (s.collection name)

/-- A group of hexadecimal digits of at least the given length. -/
def hexGroup (length n : Nat) : String :=
  let digits := Text.hex n
  String.ofList (List.replicate (length - digits.length) '0' ++ digits)

/-- The identifying value that is given to a document without one, when `n` were given before. -/
def generatedId (n : Nat) : Value :=
  .str ("00000000-0000-4000-8000-" ++ hexGroup 12 n)

def createCollection (s : Store) (name : String) : Outcome Unit :=
  let s := s.counted
  if s.collections.contains name then (.error (.collectionExists name), s)
  else (.ok (), s.put name {})

/-- Drop a collection with its documents and indexes, if it exists. -/
def dropCollection (s : Store) (name : String) : Outcome Unit :=
  let s := s.counted
  (.ok (), { s with collections := s.collections.erase name })

def listCollections (s : Store) : Outcome (List String) :=
  (.ok s.collections.names, s)

/-- Add a document with an identifying value that no other has, if it agrees with none under a
unique index. -/
def add (s : Store) (name : String) (id : Value) (document : Document) : Outcome Unit :=
  let s := s.opened name
  let c := s.collection name
  if c.hasId id then (.error (.duplicateKey name id.json), s)
  else
    match c.violated? document with
    | some index => (.error (.duplicateKey name (index.keyText document)), s)
    | none => (.ok (), s.put name { c with documents := c.documents ++ [document] })

/-- Insert a document; one without an identifying value gets a new one. -/
def insert (s : Store) (name : String) (document : Document) : Outcome Unit :=
  let s := s.counted
  match document.id? with
  | some id => s.add name id document
  | none =>
    let id := generatedId s.issued
    match s.add name id (document.insert "_id" id) with
    | (.ok (), after) => (.ok (), { after with issued := s.issued + 1 })
    | failed => failed

/-- Update all documents that pass the filter, answering their number. Nothing changes unless every
unique index holds for the outcome. -/
def update (s : Store) (name : String) (filter : Filter) (update : Update) : Outcome Nat :=
  let s := s.counted
  if update.touchesId then (.error (.invalidDocument "the _id field is immutable"), s)
  else
    match s.collections.get? name with
    | none => (.ok 0, s)
    | some c =>
      let documents := c.updated filter update
      match Collection.firstClash? c.indexes documents with
      | some (index, document) => (.error (.duplicateKey name (index.keyText document)), s)
      | none => (.ok (c.count filter), s.put name { c with documents })

/-- Delete all documents that pass the filter, answering their number. -/
def delete (s : Store) (name : String) (filter : Filter) : Outcome Nat :=
  let s := s.counted
  match s.collections.get? name with
  | none => (.ok 0, s)
  | some c =>
    (.ok (c.count filter), s.put name { c with documents := c.documents.filter (!filter.passes ·) })

/-- Delete the first document that passes the filter, answering whether there was one. -/
def deleteFirst (s : Store) (name : String) (filter : Filter) : Outcome Bool :=
  let s := s.counted
  match s.collections.get? name with
  | none => (.ok false, s)
  | some c =>
    match Collection.withoutFirst? filter c.documents with
    | none => (.ok false, s)
    | some documents => (.ok true, s.put name { c with documents })

def find (s : Store) (name : String) (filter : Filter) : Outcome (List Document) :=
  (.ok ((s.collection name).documents.filter filter.passes), s)

/-- Create an index; one that exists with the same keys is left as it is. -/
def createIndex (s : Store) (name : String) (index : Index) : Outcome Unit :=
  let s := s.counted
  if index.keys.isEmpty then
    (.error (.invalidDocument ("index '" ++ index.name ++ "' has no keys")), s)
  else
    let s := s.opened name
    let c := s.collection name
    match c.index? index.name with
    | some existing =>
      if existing = index then (.ok (), s) else (.error (.indexConflict name index.name), s)
    | none =>
      match Collection.firstClash? [index] c.documents with
      | some (_, document) => (.error (.duplicateKey name (index.keyText document)), s)
      | none => (.ok (), s.put name { c with indexes := c.indexes ++ [index] })

def dropIndex (s : Store) (name : String) (index : String) : Outcome Unit :=
  let s := s.counted
  let c := s.collection name
  match Collection.withoutIndex? index c.indexes with
  | none => (.error (.indexNotFound name index), s)
  | some indexes => (.ok (), s.put name { c with indexes })

def listIndexes (s : Store) (name : String) : Outcome (List Index) :=
  (.ok (s.collection name).indexes, s)

end Store

end Stepwise
