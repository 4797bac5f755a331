import Stepwise.Document.Path

/-!
# Updates

An update assigns values at dotted paths, in order, and then removes what stands at others.
-/

namespace Stepwise

/-- Assignments and removals by dotted path. -/
structure Update where
  /-- The values to assign, by path. -/
  set : Fields := []
  /-- The paths to remove. -/
  unset : List String := []
deriving DecidableEq, Repr

namespace Update

def isEmpty (update : Update) : Bool :=
  update.set.isEmpty && update.unset.isEmpty

/-- The document with all values assigned and then all removals made. -/
def apply (update : Update) (document : Document) : Document :=
  let assigned := update.set.foldl (fun d (path, value) => d.assign (.parse path) value) document
  update.unset.foldl (fun d path => d.remove (.parse path)) assigned

/-- Whether the update names the identifying field itself. -/
def touchesId (update : Update) : Bool :=
  update.set.any (·.1 = "_id") || update.unset.any (· = "_id")

end Update

end Stepwise
