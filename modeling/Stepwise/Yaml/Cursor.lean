/-!
# Places in a YAML text

A cursor stands in a text: what is left of it, the number of characters before, and the line and
column. Columns decide about the structure of a YAML text, and lines and distances about which
scalars may be keys.
-/

namespace Stepwise.Yaml

def isSpaceOrTab (c : Char) : Bool :=
  c = ' ' || c = '\t'

def isBreak (c : Char) : Bool :=
  c = '\n' || c = '\r' || c = '\u0085' || c = '\u2028' || c = '\u2029'

/-- Whether a character may stand in the name of an anchor, a directive or a tag handle. -/
def isWordChar (c : Char) : Bool :=
  c.isAlphanum || c = '_' || c = '-'

/-- Whether a character may stand in a YAML text: it is neither a control character other than tab
and line breaks nor a noncharacter of the basic plane. -/
def isAllowed (c : Char) : Bool :=
  let n := c.toNat
  n = 0x09 || n = 0x0A || n = 0x0D || (0x20 ≤ n && n ≤ 0x7E) || n = 0x85 ||
    (0xA0 ≤ n && n ≤ 0xFFFD) || 0x10000 ≤ n

/-- Whether a text begins with a space, a tab or a line break, or is at its end. -/
def beginsBlank : List Char → Bool
  | [] => true
  | c :: _ => isSpaceOrTab c || isBreak c

structure Cursor where
  rest : List Char
  index : Nat := 0
  line : Nat := 0
  column : Nat := 0
deriving Repr

namespace Cursor

/-- The place after the next character. A carriage return and a line feed are one line break. -/
def next (c : Cursor) : Cursor :=
  match c.rest with
  | [] => c
  | char :: rest =>
    if isBreak char && !(char = '\r' && rest.head? = some '\n') then
      ⟨rest, c.index + 1, c.line + 1, 0⟩
    else ⟨rest, c.index + 1, c.line, c.column + 1⟩

def skip (c : Cursor) : Nat → Cursor
  | 0 => c
  | n + 1 => c.next.skip n

/-- The characters up to the first that fails the test, and the place after them. -/
def takeWhile (c : Cursor) (test : Char → Bool) : List Char × Cursor :=
  let taken := c.rest.takeWhile test
  (taken, c.skip taken.length)

/-- The place after the spaces and tabs that come next. -/
def skipSpaces (c : Cursor) : Cursor :=
  (c.takeWhile isSpaceOrTab).2

/-- The place after the comment that comes next, if one does. -/
def skipComment (c : Cursor) : Cursor :=
  if c.rest.head? = some '#' then (c.takeWhile (!isBreak ·)).2 else c

/-- The text of the line break that comes next, if one does, and the place after it. All breaks but
the line and paragraph separators are line feeds in a text. -/
def lineBreak (c : Cursor) : List Char × Cursor :=
  match c.rest with
  | '\r' :: '\n' :: _ => (['\n'], c.skip 2)
  | char :: _ =>
    if char = '\u2028' ∨ char = '\u2029' then ([char], c.next)
    else if isBreak char then (['\n'], c.next)
    else ([], c)
  | [] => ([], c)

def atLineEnd (c : Cursor) : Bool :=
  c.rest.head?.all isBreak

/-- Whether a line begins here that starts or ends a document. -/
def atMarker (c : Cursor) : Bool :=
  c.column = 0 &&
    match c.rest with
    | '-' :: '-' :: '-' :: rest => beginsBlank rest
    | '.' :: '.' :: '.' :: rest => beginsBlank rest
    | _ => false

/-- The place after the rest of a line that has nothing but blanks and a comment. -/
def finishLine? (c : Cursor) : Option Cursor :=
  let c := c.skipSpaces.skipComment
  if c.atLineEnd then some c.lineBreak.2 else none

end Cursor

end Stepwise.Yaml
