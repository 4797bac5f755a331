import Stepwise.Document.Path

/-!
# Filters

A filter is a list of equalities on dotted paths. A document passes when every one of them holds; a
missing value passes where null is expected.
-/

namespace Stepwise

/-- Expected values by dotted path; the empty filter passes every document. -/
abbrev Filter := Fields

namespace Filter

def expects (expected : Value) : Option Value → Bool
  | some actual => actual ≈ expected
  | none => expected = .null

def passes (filter : Filter) (document : Document) : Bool :=
  filter.all fun (path, expected) => expects expected (document.lookup (.parse path))

def onId (id : Value) : Filter :=
  [("_id", id)]

end Filter

end Stepwise
