import Stepwise.Yaml.Folding

/-!
# Block scalars

A block scalar is made of the lines below its header that are indented more than what is around it.
The header says whether lines are kept or folded, what becomes of the line breaks at the end, and
how deep the text is indented, if that is not to be taken from its first line.
-/

namespace Stepwise.Yaml.Block

/-- What becomes of the line breaks at the end of a block scalar. -/
inductive Chomping where
  | strip
  /-- The first is kept. -/
  | clip
  | keep
deriving DecidableEq

/-- The chomping that a sign in the header asks for. -/
def Chomping.ofSign? (c : Char) : Option Chomping :=
  if c = '+' then some .keep else if c = '-' then some .strip else none

/-- The depth that a digit in the header asks for; zero is refused. -/
def depth? (c : Char) : Option Nat :=
  if c.isDigit ∧ c ≠ '0' then some (c.toNat - '0'.toNat) else none

/-- The depth after a sign, if one is given. -/
def depthAfter? (c : Cursor) : Option (Option Nat × Cursor) :=
  match c.rest with
  | d :: _ => if d.isDigit then (depth? d).map fun depth => (some depth, c.next) else some (none, c)
  | [] => some (none, c)

/-- The chomping and the depth that a header asks for, and the place after the header's line. -/
def header? (c : Cursor) : Option (Chomping × Option Nat × Cursor) := do
  let (chomping, depth, c) ← match c.rest with
    | [] => some (.clip, none, c)
    | first :: _ =>
      match Chomping.ofSign? first with
      | some chomping => (depthAfter? c.next).map fun (depth, c) => (chomping, depth, c)
      | none =>
        if first.isDigit then do
          let depth ← depth? first
          let c := c.next
          match c.rest.head?.bind Chomping.ofSign? with
          | some chomping => some (chomping, some depth, c.next)
          | none => some (.clip, some depth, c)
        else some (.clip, none, c)
  let c ← c.finishLine?
  return (chomping, depth, c)

/-- Read empty lines and the indentation of the next one: the line breaks, the place after them and
the deepest column. Spaces are indentation up to `indent`, or all of them while it is not known, and
a tab must not stand among them. -/
def breaks? (indent : Option Nat) : Nat → (deepest : Nat) → Cursor →
    Option (List Char × Cursor × Nat)
  | 0, deepest, c => some ([], c, deepest)
  | fuel + 1, deepest, c =>
    let inside (column : Nat) : Bool := indent.all (column < ·)
    match c.rest with
    | ' ' :: _ =>
      if inside c.column then breaks? indent fuel deepest c.next
      else some ([], c, max deepest c.column)
    | '\t' :: _ => if inside c.column then none else some ([], c, max deepest c.column)
    | char :: _ =>
      let deepest := max deepest c.column
      if isBreak char then do
        let (text, c) := c.lineBreak
        let (rest, c, deepest) ← breaks? indent fuel deepest c
        some (text ++ rest, c, deepest)
      else some ([], c, deepest)
    | [] => some ([], c, max deepest c.column)

/-- What separates a line from the one before it: its line break `first` is a space in a folded
text, unless one of the two lines begins with a blank, or nothing if further breaks follow. -/
def separator (literal leadingBlank trailingBlank : Bool) (first others : List Char) : List Char :=
  if !literal && first.head? = some '\n' && !leadingBlank && !trailingBlank then
    (if others.isEmpty then [' '] else others)
  else first ++ others

/-- The lines of a text that is indented by `indent`: the text, its last line break, the breaks
after that, and the place after them. `first` and `others` are the breaks before the next line, and
`leadingBlank` says whether the line before begins with a blank. -/
def lines? (literal : Bool) (indent : Nat) : Nat → (leadingBlank : Bool) →
    (first others : List Char) → Cursor → Option (List Char × List Char × List Char × Cursor)
  | 0, _, _, _, _ => none
  | fuel + 1, leadingBlank, first, others, c =>
    if c.column = indent ∧ !c.rest.isEmpty then do
      let blank := c.rest.head?.any isSpaceOrTab
      let separator := separator literal leadingBlank blank first others
      let (line, c) := c.takeWhile (!isBreak ·)
      let (first, c) := c.lineBreak
      let (others, c, _) ← breaks? (some indent) (c.rest.length + 1) 0 c
      let (text, first, others, c) ← lines? literal indent fuel blank first others c
      some (separator ++ line ++ text, first, others, c)
    else some ([], first, others, c)

/-- The block scalar whose header begins here, inside of a structure at column `outer`: its text and
the place after it. -/
def read? (literal : Bool) (outer : Int) (c : Cursor) : Option (List Char × Cursor) := do
  let (chomping, depth, c) ← header? c
  let given := depth.map fun depth => if 0 ≤ outer then outer.toNat + depth else depth
  let (others, c, deepest) ← breaks? given (c.rest.length + 1) 0 c
  let indent := given.getD (max (max deepest (outer + 1).toNat) 1)
  let (text, first, others, c) ← lines? literal indent (c.rest.length + 1) false [] others c
  let tail := match chomping with
    | .strip => []
    | .clip => first
    | .keep => first ++ others
  return (text ++ tail, c)

end Stepwise.Yaml.Block
