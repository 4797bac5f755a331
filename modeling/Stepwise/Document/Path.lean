import Stepwise.Document.Fields
import Stepwise.Text.Parts

/-!
# Paths

A dotted path names a place inside a document: its segments are the names of fields, from the
outermost object inwards. Reading goes through objects only; assigning makes objects on the way,
also in place of other values; removing changes nothing when the place does not exist.
-/

namespace Stepwise

/-- The segments of a dotted path, at least one. -/
structure Path where
  head : String
  rest : List String
deriving DecidableEq, Repr

namespace Path

/-- The path that a dotted text names. Every text names one; segments may be empty. -/
def parse (text : String) : Path :=
  let (first, others) := Text.parts (· = '.') text.toList
  ⟨String.ofList first, others.map String.ofList⟩

/-- The segments, outermost first. -/
def segments (p : Path) : List String :=
  p.head :: p.rest

end Path

def Value.at? : Value → List String → Option Value
  | value, [] => some value
  | .obj fields, segment :: rest =>
    match NamedList.get? fields segment with
    | some value => value.at? rest
    | none => none
  | _, _ :: _ => none

/-- The fields of an object; other values and a missing one have none. -/
def Value.fieldsOf : Option Value → Fields
  | some (.obj fields) => fields
  | _ => []

namespace Fields

def lookup (document : Document) (path : Path) : Option Value :=
  (document.get? path.head).bind (·.at? path.rest)

/-- Assign the value at the segments, from the first on. -/
def assignAt (fields : Fields) (head : String) : List String → Value → Fields
  | [], value => fields.insert head value
  | next :: rest, value =>
    fields.insert head (.obj (assignAt (Value.fieldsOf (fields.get? head)) next rest value))

/-- Remove the value at the segments, from the first on. -/
def removeAt (fields : Fields) (head : String) : List String → Fields
  | [] => fields.erase head
  | next :: rest =>
    match fields.get? head with
    | some (.obj child) => fields.insert head (.obj (removeAt child next rest))
    | _ => fields

def assign (document : Document) (path : Path) (value : Value) : Document :=
  document.assignAt path.head path.rest value

def remove (document : Document) (path : Path) : Document :=
  document.removeAt path.head path.rest

end Fields

end Stepwise
