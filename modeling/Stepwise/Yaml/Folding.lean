import Stepwise.Yaml.Cursor

/-!
# Folded lines

Plain and quoted scalars may go on over several lines. The blanks between two words stand for
themselves on one line; a single line break stands for a space, and of several the first is dropped.
-/

namespace Stepwise.Yaml

/-- The blanks between two words of a scalar. -/
structure Gap where
  /-- The spaces and tabs, when there is no line break. -/
  spaces : List Char := []
  /-- The first line break and the others. -/
  breaks : Option (List Char × List Char) := none
deriving Repr

namespace Gap

/-- What a first line break and the others stand for. -/
def folded (first others : List Char) : List Char :=
  if first.head? = some '\n' then (if others.isEmpty then [' '] else others)
  else first ++ others

def text (gap : Gap) : List Char :=
  match gap.breaks with
  | none => gap.spaces
  | some (first, others) => folded first others

def hasBreak (gap : Gap) : Bool :=
  gap.breaks.isSome

/-- Read blanks on from a gap, up to a number of characters. After a line break, no tab may stand in
a column before `indent`. -/
def read? (indent : Nat) : Nat → Gap → Cursor → Option (Gap × Cursor)
  | 0, gap, c => some (gap, c)
  | fuel + 1, gap, c =>
    match c.rest with
    | [] => some (gap, c)
    | char :: _ =>
      if isSpaceOrTab char then
        match gap.breaks with
        | none => read? indent fuel { gap with spaces := gap.spaces ++ [char] } c.next
        | some _ =>
          if char = '\t' ∧ c.column < indent then none else read? indent fuel gap c.next
      else if isBreak char then
        let (text, c) := c.lineBreak
        match gap.breaks with
        | none => read? indent fuel { spaces := [], breaks := some (text, []) } c
        | some (first, others) =>
          read? indent fuel { gap with breaks := some (first, others ++ text) } c
      else some (gap, c)

end Gap

end Stepwise.Yaml
