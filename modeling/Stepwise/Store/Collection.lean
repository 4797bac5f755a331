import Stepwise.Document.Filter
import Stepwise.Document.Index
import Stepwise.Document.Update

/-!
# Collections

Documents in the order of their insertion, and indexes in the order of their creation.
-/

namespace Stepwise

def Fields.id? (document : Document) : Option Value :=
  document.get? "_id"

/-- The documents and indexes under one name. -/
structure Collection where
  documents : List Document := []
  indexes : List Index := []
deriving DecidableEq, Repr

namespace Collection

instance : Inhabited Collection := ⟨{}⟩

def hasId (c : Collection) (id : Value) : Bool :=
  c.documents.any fun document =>
    match document.id? with
    | some taken => taken ≈ id
    | none => false

/-- The first unique index under which the document agrees with one of the collection. -/
def violated? (c : Collection) (document : Document) : Option Index :=
  c.indexes.find? fun index => index.unique && c.documents.any (index.agree document)

def count (c : Collection) (filter : Filter) : Nat :=
  c.documents.countP filter.passes

/-- The documents with the update made in all that pass the filter. -/
def updated (c : Collection) (filter : Filter) (update : Update) : List Document :=
  c.documents.map fun document =>
    if filter.passes document then update.apply document else document

/-- The first unique index under which two of the documents agree, with the later of the two. -/
def firstClash? (indexes : List Index) (documents : List Document) : Option (Index × Document) :=
  indexes.findSome? fun index =>
    if index.unique then (index.firstRepeat? [] documents).map (index, ·) else none

/-- The documents without the first that passes the filter, if one does. -/
def withoutFirst? (filter : Filter) : List Document → Option (List Document)
  | [] => none
  | document :: rest =>
    if filter.passes document then some rest
    else (withoutFirst? filter rest).map (document :: ·)

def index? (c : Collection) (name : String) : Option Index :=
  c.indexes.find? (·.name = name)

/-- The indexes without the first of a name, if there is one. -/
def withoutIndex? (name : String) : List Index → Option (List Index)
  | [] => none
  | index :: rest =>
    if index.name = name then some rest else (withoutIndex? name rest).map (index :: ·)

end Collection

end Stepwise
