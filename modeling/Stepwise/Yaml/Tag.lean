import Stepwise.Json.Form
import Stepwise.Yaml.Cursor

/-!
# Tags and directives

A tag says what kind of node follows: by a handle, for which the document may declare a prefix, and
a suffix, or in full between angle brackets. Directives stand before a document; one tells the
version of the format, the other declares a handle.
-/

namespace Stepwise.Yaml

/-- A tag as it is written. Without handle the suffix is the whole tag. -/
structure Tag where
  handle : String
  suffix : String
deriving DecidableEq, Repr

/-- A line before a document. -/
inductive Directive where
  | version (major minor : Nat)
  /-- A handle and what it stands for at the begin of tags. -/
  | declare (handle mark : String)
deriving DecidableEq, Repr

namespace Tag

/-- Whether a character may stand in a tag; commas and square brackets only if `full`. -/
def isUriChar (full : Bool) (c : Char) : Bool :=
  isWordChar c || c ∈ ";/?:@&=+$.%!~*'()".toList || (full && c ∈ [',', '[', ']'])

def octet? (c : Cursor) : Option (Nat × Cursor) :=
  match c.rest with
  | '%' :: a :: b :: _ => do
    return (16 * (← Json.Form.hexDigit? a) + (← Json.Form.hexDigit? b), c.skip 3)
  | _ => none

/-- Octets that continue a character, taken into its code point. -/
def continued? : Nat → Nat → Cursor → Option (Nat × Cursor)
  | 0, n, c => some (n, c)
  | count + 1, n, c => do
    let (octet, c) ← octet? c
    if 0x80 ≤ octet ∧ octet < 0xC0 then continued? count (64 * n + octet % 64) c else none

/-- The character that escaped octets encode. -/
def escaped? (c : Cursor) : Option (Char × Cursor) := do
  let (first, c) ← octet? c
  let (count, bits) ← if first < 0x80 then some (0, first)
    else if first < 0xC0 then none
    else if first < 0xE0 then some (1, first % 32)
    else if first < 0xF0 then some (2, first % 16)
    else if first < 0xF8 then some (3, first % 8)
    else none
  let (n, c) ← continued? count bits c
  return (if n.isValidChar then Char.ofNat n else '\uFFFD', c)

/-- The characters of a tag from here on, up to a number of them, and the place after them. -/
def uri? (full : Bool) : Nat → Cursor → Option (List Char × Cursor)
  | 0, c => some ([], c)
  | fuel + 1, c =>
    match c.rest with
    | [] => some ([], c)
    | char :: _ =>
      if char = '%' then do
        let (char, c) ← escaped? c
        let (rest, c) ← uri? full fuel c
        some (char :: rest, c)
      else if isUriChar full char then do
        let (rest, c) ← uri? full fuel c.next
        some (char :: rest, c)
      else some ([], c)

def someUri? (full : Bool) (c : Cursor) : Option (List Char × Cursor) := do
  let (text, c) ← uri? full c.rest.length c
  if text.isEmpty then none else some (text, c)

def body? (c : Cursor) : Option (Tag × Cursor) := do
  let c := c.next
  if c.rest.head? = some '<' then
    let (text, c) ← someUri? true c.next
    if c.rest.head? = some '>' then some (⟨"", String.ofList text⟩, c.next) else none
  else
    let (word, c) := c.takeWhile isWordChar
    if c.rest.head? = some '!' then
      let (text, c) ← someUri? false c.next
      some (⟨String.ofList ('!' :: word ++ ['!']), String.ofList text⟩, c)
    else
      let (text, c) ← uri? false c.rest.length c
      let suffix := word ++ text
      if suffix.isEmpty then some (⟨"", "!"⟩, c) else some (⟨"!", String.ofList suffix⟩, c)

/-- A tag with what has to follow it: a blank, or a comma inside of brackets. -/
def read? (inFlow : Bool) (c : Cursor) : Option (Tag × Cursor) := do
  let (tag, c) ← body? c
  if beginsBlank c.rest || (inFlow && c.rest.head? = some ',') then some (tag, c) else none

end Tag

namespace Directive

def number? (c : Cursor) : Option (Nat × Cursor) :=
  let (digits, c) := c.takeWhile Char.isDigit
  if digits.isEmpty ∨ 9 < digits.length then none
  else some (Json.Numeral.digitsValue digits, c)

def version? (c : Cursor) : Option (Directive × Cursor) := do
  let (major, c) ← number? c.skipSpaces
  if c.rest.head? = some '.' then
    let (minor, c) ← number? c.next
    return (.version major minor, c)
  else none

/-- The handle that follows, and the prefix it is declared to stand for. -/
def handle? (c : Cursor) : Option (Directive × Cursor) := do
  let c := c.skipSpaces
  if c.rest.head? = some '!' then
    let (word, c) := c.next.takeWhile isWordChar
    let (handle, c) ← if c.rest.head? = some '!' then some ('!' :: word ++ ['!'], c.next)
      else if word.isEmpty then some (['!'], c) else none
    if c.rest.head?.any isSpaceOrTab then
      let (mark, c) ← Tag.someUri? true c.skipSpaces
      if beginsBlank c.rest then
        return (.declare (String.ofList handle) (String.ofList mark), c)
      else none
    else none
  else none

/-- The directive that begins here with a percent sign, and the place after its line. -/
def read? (c : Cursor) : Option (Directive × Cursor) := do
  let (name, c) := c.next.takeWhile isWordChar
  if beginsBlank c.rest then
    let (directive, c) ← match String.ofList name with
      | "YAML" => version? c
      | "TAG" => handle? c
      | _ => none
    return (directive, ← c.finishLine?)
  else none

end Directive

end Stepwise.Yaml
