import Stepwise.Yaml.Block
import Stepwise.Yaml.Plain
import Stepwise.Yaml.Quotes
import Stepwise.Yaml.Token

/-!
# Tokens from the layout of a text

Outside of brackets the structure of a YAML text is made by its layout: what stands further to the
right than its surroundings opens a collection, and what stands further to the left closes it. A
scalar turns out to be a key when a colon follows it on its line, at most 1024 characters after its
begin; the tokens of the key then go in front of it. `Token.ofText?` takes the tokens off a text one
by one.
-/

namespace Stepwise.Yaml

/-- Where a key may begin. -/
structure PendingKey where
  /-- The number of tokens before it. -/
  position : Nat
  index : Nat
  line : Nat
  column : Nat
  /-- Whether nothing but a key can stand there. -/
  required : Bool
deriving Repr

/-- The state of taking tokens off a text. -/
structure Layout where
  cursor : Cursor
  /-- The tokens so far, last first. -/
  tokens : List Token := []
  count : Nat := 0
  /-- The column of the innermost collection that indentation made, and those around it. -/
  indent : Int := -1
  indents : List Int := []
  /-- Where a key may begin inside of the innermost brackets, and in those around them. -/
  pending : Option PendingKey := none
  outer : List (Option PendingKey) := []
  /-- Whether a key may begin at the next token. -/
  keyAllowed : Bool := true
deriving Repr

namespace Layout

def inFlow (s : Layout) : Bool :=
  !s.outer.isEmpty

def push (s : Layout) (token : Token) : Layout :=
  { s with tokens := token :: s.tokens, count := s.count + 1 }

/-- Put a token before those from a position on. -/
def pushAt (s : Layout) (position : Nat) (token : Token) : Layout :=
  let after := s.count - position
  { s with
    tokens := s.tokens.take after ++ token :: s.tokens.drop after
    count := s.count + 1 }

/-- Forget where a key may begin; fails when one has to. -/
def dropPending? (s : Layout) : Option Layout :=
  if s.pending.any (·.required) then none else some { s with pending := none }

/-- Remember that a key may begin here, if one is allowed to. -/
def savePending? (s : Layout) : Option Layout :=
  if s.keyAllowed then do
    let c := s.cursor
    let required := !s.inFlow && s.indent = c.column
    let s ← s.dropPending?
    return { s with pending := some ⟨s.count, c.index, c.line, c.column, required⟩ }
  else some s

/-- Whether a key that may begin at `key` can no longer do so: it ends on a later line or too far
away. -/
def isStale (c : Cursor) (key : PendingKey) : Bool :=
  key.line < c.line || key.index + 1024 < c.index

/-- Forget a place where a key can no longer begin; fails when one has to. -/
def refresh? (c : Cursor) : Option PendingKey → Option (Option PendingKey)
  | none => some none
  | some key =>
    if isStale c key then (if key.required then none else some none) else some (some key)

/-- Forget all places where a key can no longer begin. -/
def dropStale? (s : Layout) : Option Layout := do
  let pending ← refresh? s.cursor s.pending
  let outer ← s.outer.mapM (refresh? s.cursor)
  return { s with pending, outer }

/-- Open a collection at a column that is further to the right, its first token going to `position`
or to the end. -/
def openBlock (s : Layout) (column : Nat) (position : Option Nat) (token : Token) : Layout :=
  if !s.inFlow && s.indent < column then
    let s := { s with indents := s.indent :: s.indents, indent := column }
    match position with
    | some position => s.pushAt position token
    | none => s.push token
  else s

/-- Close the collections among `indents` that are further to the right than a column. -/
def closeFrom (column : Int) : List Int → Layout → Layout
  | [], s => s
  | outer :: indents, s =>
    if column < s.indent then
      closeFrom column indents { s.push .blockEnd with indent := outer, indents }
    else s

def closeBlocks (s : Layout) (column : Int) : Layout :=
  if s.inFlow then s else closeFrom column s.indents s

/-- Skip blanks, comments and line breaks, up to a number of parts. Outside of brackets a tab is a
blank only where no key may begin, and a line break allows one to begin. -/
def skipBlanks : Nat → Layout → Layout
  | 0, s => s
  | fuel + 1, s =>
    let c := s.cursor
    let c := if c.index = 0 && c.rest.head? = some '\uFEFF' then c.next else c
    let c := (c.takeWhile fun char =>
      char = ' ' || ((s.inFlow || !s.keyAllowed) && char = '\t')).2
    let c := c.skipComment
    if c.rest.head?.any isBreak then
      skipBlanks fuel { s with cursor := c.lineBreak.2, keyAllowed := s.keyAllowed || !s.inFlow }
    else { s with cursor := c }

/-- Take one character as a token. -/
def take (s : Layout) (token : Token) : Layout :=
  { s with cursor := s.cursor.next }.push token

/-- Leave all collections that indentation made, before a directive or a mark of a document. -/
def leaveDocument? (s : Layout) : Option Layout := do
  let s ← (s.closeBlocks (-1)).dropPending?
  return { s with keyAllowed := false }

/-- A line of three characters that starts or ends a document. -/
def marker? (s : Layout) (token : Token) : Option Layout := do
  let s ← s.leaveDocument?
  return { s with cursor := s.cursor.skip 3 }.push token

def directive? (s : Layout) : Option Layout := do
  let s ← s.leaveDocument?
  let (directive, c) ← Directive.read? s.cursor
  return { s with cursor := c }.push (.directive directive)

def openFlow? (s : Layout) (token : Token) : Option Layout := do
  let s ← s.savePending?
  return { s with pending := none, outer := s.pending :: s.outer, keyAllowed := true }.take token

def closeFlow? (s : Layout) (token : Token) : Option Layout := do
  let s ← s.dropPending?
  let s := match s.outer with
    | [] => s
    | pending :: outer => { s with pending, outer }
  return { s with keyAllowed := false }.take token

def comma? (s : Layout) : Option Layout := do
  let s ← s.dropPending?
  return { s with keyAllowed := true }.take .comma

/-- A hyphen in front of an item. -/
def item? (s : Layout) : Option Layout := do
  let s ← if s.inFlow then some s
    else if s.keyAllowed then some (s.openBlock s.cursor.column none .sequenceStart) else none
  let s ← s.dropPending?
  return { s with keyAllowed := true }.take .item

/-- A question mark in front of a key. -/
def key? (s : Layout) : Option Layout := do
  let s ← if s.inFlow then some s
    else if s.keyAllowed then some (s.openBlock s.cursor.column none .mappingStart) else none
  let s ← s.dropPending?
  return { s with keyAllowed := !s.inFlow }.take .key

/-- A colon in front of a value. -/
def value? (s : Layout) : Option Layout :=
  match s.pending with
  | some key =>
    let s := s.pushAt key.position .key
    let s := s.openBlock key.column (some key.position) .mappingStart
    some ({ s with pending := none, keyAllowed := false }.take .value)
  | none =>
    if s.inFlow then some ({ s with keyAllowed := false }.take .value)
    else if s.keyAllowed then
      some ({ s.openBlock s.cursor.column none .mappingStart with keyAllowed := true }.take .value)
    else none

def name? (c : Cursor) : Option (String × Cursor) :=
  let (name, c) := c.next.takeWhile isWordChar
  if name.isEmpty then none
  else if beginsBlank c.rest || c.rest.head?.any (· ∈ "?:,]\x7d%@`".toList) then
    some (String.ofList name, c)
  else none

/-- A token that may begin a key and after which none may begin. -/
def content? (s : Layout) (read : Cursor → Option (Token × Cursor)) : Option Layout := do
  let s ← s.savePending?
  let (token, c) ← read s.cursor
  return { s with cursor := c, keyAllowed := false }.push token

/-- A plain scalar. Where it ends with a line break, a key may begin. -/
def plain? (s : Layout) : Option Layout := do
  let s ← s.savePending?
  let (text, c, broken) ← Plain.read? s.inFlow (s.indent + 1).toNat s.cursor
  return { s with cursor := c, keyAllowed := broken }.push (.scalar (String.ofList text) .plain)

def quoted? (s : Layout) (single : Bool) : Option Layout :=
  s.content? fun c => (Quotes.read? single c.next).map fun (text, c) =>
    (.scalar (String.ofList text) .quoted, c)

def block? (s : Layout) (literal : Bool) : Option Layout := do
  let s ← s.dropPending?
  let (text, c) ← Block.read? literal s.indent s.cursor.next
  let style : Style := if literal then .literal else .folded
  return { s with cursor := c, keyAllowed := true }.push (.scalar (String.ofList text) style)

/-- Whether a plain scalar may begin with these characters. -/
def beginsPlain (inFlow : Bool) : List Char → Bool
  | [] => false
  | c :: rest =>
    !(isSpaceOrTab c || isBreak c || c ∈ "-?:,[]\x7b\x7d#&*!|>'\"%@`".toList) ||
      (c = '-' && !rest.head?.any isSpaceOrTab) ||
      (!inFlow && (c = '?' || c = ':') && !beginsBlank rest)

def token? (s : Layout) (char : Char) (rest : List Char) : Option Layout :=
  let c := s.cursor
  let indicates := s.inFlow || beginsBlank rest
  if c.column = 0 ∧ char = '%' then s.directive?
  else if c.atMarker then s.marker? (if char = '-' then .documentStart else .documentEnd)
  else if char = '[' then s.openFlow? .flowSequenceStart
  else if char = '{' then s.openFlow? .flowMappingStart
  else if char = ']' then s.closeFlow? .flowSequenceEnd
  else if char = '}' then s.closeFlow? .flowMappingEnd
  else if char = ',' then s.comma?
  else if char = '-' ∧ beginsBlank rest then s.item?
  else if char = '?' ∧ indicates then s.key?
  else if char = ':' ∧ indicates then s.value?
  else if char = '*' then s.content? fun c => (name? c).map fun (name, c) => (.alias name, c)
  else if char = '&' then s.content? fun c => (name? c).map fun (name, c) => (.anchor name, c)
  else if char = '!' then
    s.content? fun c => (Tag.read? s.inFlow c).map fun (tag, c) => (.tag tag, c)
  else if char = '|' ∧ !s.inFlow then s.block? true
  else if char = '>' ∧ !s.inFlow then s.block? false
  else if char = '\'' then s.quoted? true
  else if char = '"' then s.quoted? false
  else if beginsPlain s.inFlow c.rest then s.plain?
  else none

def finish? (s : Layout) : Option (List Token) := do
  let s ← s.leaveDocument?
  return s.tokens.reverse

/-- All tokens from here on, up to a number of them. -/
def run? : Nat → Layout → Option (List Token)
  | 0, _ => none
  | fuel + 1, s => do
    let s ← (s.skipBlanks (s.cursor.rest.length + 1)).dropStale?
    let s := s.closeBlocks s.cursor.column
    match s.cursor.rest with
    | [] => s.finish?
    | char :: rest => run? fuel (← s.token? char rest)

end Layout

/-- The tokens of a text, unless a character is not allowed or no token can begin somewhere. -/
def Token.ofText? (text : String) : Option (List Token) :=
  let s := text.toList
  if s.all isAllowed then Layout.run? (s.length + 1) { cursor := { rest := s } } else none

end Stepwise.Yaml
