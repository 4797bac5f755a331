import Stepwise.Document.Path
import Stepwise.Json.Text

/-!
# Indexes

An index names the fields whose values it orders documents by. Two documents agree under an index
when they have equal values there, a missing value counting as null; under a unique index no two
documents of a collection may agree.
-/

namespace Stepwise

/-- The direction in which an index orders a field. -/
inductive SortOrder where
  | ascending
  | descending
deriving DecidableEq, Repr

def SortOrder.sign : SortOrder → Int
  | .ascending => 1
  | .descending => -1

/-- One ordered field of an index, given by its dotted path. -/
structure IndexKey where
  field : String
  order : SortOrder := .ascending
deriving DecidableEq, Repr

/-- A named index. -/
structure Index where
  name : String
  keys : List IndexKey
  unique : Bool := false
deriving DecidableEq, Repr

namespace Index

def values (index : Index) (document : Document) : List Value :=
  index.keys.map fun key => (document.lookup (.parse key.field)).getD .null

/-- Whether two documents have equal values under the index. -/
def agree (index : Index) (a b : Document) : Bool :=
  (index.values a).map Value.canonical = (index.values b).map Value.canonical

/-- The first document that agrees with one before it, or with one of those already seen. -/
def firstRepeat? (index : Index) (seen : List Document) : List Document → Option Document
  | [] => none
  | document :: rest =>
    if seen.any (index.agree document) then some document
    else firstRepeat? index (document :: seen) rest

/-- The text that shows the values of a document under the index. -/
def keyText (index : Index) (document : Document) : String :=
  index.name ++ " [" ++ ", ".intercalate ((index.values document).map Value.labelled) ++ "]"

end Index

end Stepwise
