/-!
# Parts of a text

A text split at separators: between `n` separators there are `n + 1` parts, some of them possibly
empty. The first part is kept apart from the others, as there always is one.
-/

namespace Stepwise.Text

variable {α : Type}

/-- The parts between separators: the first and the others. -/
def parts (isSeparator : α → Bool) : List α → List α × List (List α)
  | [] => ([], [])
  | c :: cs =>
    let (first, others) := parts isSeparator cs
    if isSeparator c then ([], first :: others) else (c :: first, others)

/-- The parts that are not empty. -/
def words (isSeparator : α → Bool) (cs : List α) : List (List α) :=
  let (first, others) := parts isSeparator cs
  (first :: others).filter (!·.isEmpty)

end Stepwise.Text
