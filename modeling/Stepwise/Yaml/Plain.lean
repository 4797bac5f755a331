import Stepwise.Yaml.Folding

/-!
# Plain scalars

A plain scalar has no quotes. It ends before a colon with a blank after it, a comment, a line that
is not indented enough or that starts or ends a document; inside of brackets it also ends before
commas and brackets, and must not have a colon in front of one.
-/

namespace Stepwise.Yaml.Plain

def isFlowEnd (c : Char) : Bool :=
  c = ',' || c = '[' || c = ']' || c = '{' || c = '}'

/-- The length of the word at the start of a text; none when a colon stands where it must not. -/
def wordLength? (inFlow : Bool) : List Char → Option Nat
  | [] => some 0
  | c :: rest =>
    if isSpaceOrTab c || isBreak c then some 0
    else if inFlow && c = ':' && rest.head?.any (fun d => isFlowEnd d || d = '?') then none
    else if c = ':' && beginsBlank rest then some 0
    else if inFlow && isFlowEnd c then some 0
    else (wordLength? inFlow rest).map (· + 1)

/-- What is left of a scalar after the blanks `gap`: its text, the place after it, and whether its
last blanks broke a line. -/
def more? (inFlow : Bool) (indent : Nat) : Nat → Gap → Cursor → Option (List Char × Cursor × Bool)
  | 0, _, _ => none
  | fuel + 1, gap, c =>
    if c.atMarker || c.rest.head? = some '#' then some ([], c, gap.hasBreak)
    else do
      let length ← wordLength? inFlow c.rest
      let word := c.rest.take length
      let c := c.skip length
      let (text, gap) := if length = 0 then ([], gap) else (gap.text ++ word, {})
      if !beginsBlank c.rest || c.rest.isEmpty then some (text, c, gap.hasBreak)
      else
        let (gap, c) ← gap.read? indent c.rest.length c
        if !inFlow && c.column < indent then some (text, c, gap.hasBreak)
        else
          let (rest, c, broken) ← more? inFlow indent fuel gap c
          some (text ++ rest, c, broken)

/-- The plain scalar that begins here: its text, the place after it and its last blanks, and whether
these broke a line. -/
def read? (inFlow : Bool) (indent : Nat) (c : Cursor) : Option (List Char × Cursor × Bool) :=
  more? inFlow indent (c.rest.length + 1) {} c

end Stepwise.Yaml.Plain
