import Stepwise.Data
import Stepwise.Yaml.Node

/-!
# The meaning of nodes

A plain scalar means what it looks like: null, a truth value, an integer, a floating-point number,
or else its text. Other scalars mean their text. A tag of the common types asks for a meaning of
that type. Reading a document follows aliases, and is given up when it follows more than a hundred
for each of its nodes or goes deeper than 128 collections; `Reading` counts what may still be
followed.
-/

namespace Stepwise.Yaml

namespace Scalar

def isNull (text : String) : Bool :=
  text = "null" || text = "Null" || text = "NULL" || text = "~"

def flag? (text : String) : Option Bool :=
  if text = "true" ∨ text = "True" ∨ text = "TRUE" then some true
  else if text = "false" ∨ text = "False" ∨ text = "FALSE" then some false
  else none

/-- The number that digits of a base up to sixteen denote. -/
def digitsValue? (base : Nat) (digits : List Char) : Option Nat :=
  if digits.isEmpty then none
  else digits.foldlM (fun n c => do
    let digit ← Json.Form.hexDigit? c
    if digit < base then some (base * n + digit) else none) 0

/-- The text without a sign in front. -/
def unsigned : List Char → List Char
  | '+' :: rest | '-' :: rest => rest
  | cs => cs

/-- Whether the text has only digits but begins with a zero that another digit follows. Such a text
is no number. -/
def isPadded (cs : List Char) : Bool :=
  match unsigned cs with
  | '0' :: next :: rest => (next :: rest).all Char.isDigit
  | _ => false

/-- The magnitude that digits denote, in base 16, 8 or 2 after a mark of the base. -/
def magnitude? (cs : List Char) : Option Nat :=
  match cs with
  | '0' :: 'x' :: digits => digitsValue? 16 digits
  | '0' :: 'o' :: digits => digitsValue? 8 digits
  | '0' :: 'b' :: digits => digitsValue? 2 digits
  | digits => if isPadded digits then none else digitsValue? 10 digits

/-- The integer that the text denotes, of any size. -/
def integer? (cs : List Char) : Option Int :=
  match cs with
  | '-' :: rest => (magnitude? rest).map fun n => -(n : Int)
  | '+' :: rest => (magnitude? rest).map Int.ofNat
  | rest => (magnitude? rest).map Int.ofNat

/-- The integer that the text means. One that needs more than 64 bits but not more than 128 cannot
be read, and a larger one is no integer. -/
def integerData? (cs : List Char) : Option Data := do
  let n ← integer? cs
  if -0x8000000000000000 ≤ n ∧ n ≤ 0xFFFFFFFFFFFFFFFF then some (.int n)
  else if -0x80000000000000000000000000000000 ≤ n ∧ n ≤ 0xFFFFFFFFFFFFFFFFFFFFFFFFFFFFFFFF then
    some .unreadable
  else none

/-- The digits of an exponent with their sign, up to the end of the text. -/
def power? (cs : List Char) : Option Int :=
  let digits := unsigned cs
  if digits.isEmpty ∨ !digits.all Char.isDigit then none
  else
    let n : Int := Json.Numeral.digitsValue digits
    some (if cs.head? = some '-' then -n else n)

/-- The magnitude that digits with a point and an exponent denote. -/
def decimal? (cs : List Char) : Option Binary64 := do
  let whole := cs.takeWhile Char.isDigit
  let rest := cs.dropWhile Char.isDigit
  let (fraction, rest) := match rest with
    | '.' :: rest => (rest.takeWhile Char.isDigit, rest.dropWhile Char.isDigit)
    | rest => ([], rest)
  if whole.isEmpty ∧ fraction.isEmpty then none
  else
    let power ← match rest with
      | [] => some 0
      | 'e' :: rest | 'E' :: rest => power? rest
      | _ => none
    Binary64.ofDecimal? (Json.Numeral.digitsValue (whole ++ fraction)) (power - fraction.length)

/-- The finite number that the text denotes. -/
def number? : List Char → Option Binary64
  | '-' :: rest => (decimal? rest).map Binary64.neg
  | '+' :: rest => decimal? rest
  | rest => decimal? rest

/-- The floating-point number that the text means. -/
def floatData? (text : String) : Option Data :=
  if text ∈ [".inf", ".Inf", ".INF", "+.inf", "+.Inf", "+.INF", "-.inf", "-.Inf", "-.INF", ".nan",
      ".NaN", ".NAN"] then some .nonFinite
  else (number? text.toList).map .float

/-- What a plain scalar without tag means. -/
def plainData (text : String) : Data :=
  if text = "" ∨ isNull text then .null
  else
    match flag? text with
    | some b => .bool b
    | none =>
      match integerData? text.toList with
      | some data => data
      | none =>
        if isPadded text.toList then .str text else (floatData? text).getD (.str text)

/-- The tags of the common types, null, truth value, integer and floating-point number. -/
def commonTag (name : String) : String :=
  "tag:yaml.org,2002:" ++ name

/-- What a scalar means. A tag of its own, one with an exclamation mark, has no meaning here. -/
def data? (text : String) (style : Style) (tag : Option String) : Option Data :=
  match tag with
  | none => some (if style = .plain then plainData text else .str text)
  | some tag =>
    if tag.toList.head? = some '!' then none
    else if tag = commonTag "bool" then (flag? text).map .bool
    else if tag = commonTag "int" then integerData? text.toList
    else if tag = commonTag "float" then floatData? text
    else if tag = commonTag "null" then (if isNull text then some .null else none)
    else some (.str text)

end Scalar

/-- A reading of a document, with the number of aliases that may still be followed. -/
abbrev Reading := StateT Nat Option

/-- Whether a collection may have the tag: one of its own has no meaning here. -/
def isPlainTag (tag : Option String) : Bool :=
  !tag.any fun tag => tag.toList.head? = some '!'

namespace Tree

/-- The node itself, or the one that an alias refers to. -/
def follow (t : Tree) : Node → Reading Node
  | .alias number => fun left =>
    match left, t.target? number with
    | left + 1, some node => some (node, left)
    | _, _ => none
  | node => pure node

/-- The data that a node means, inside of which `room` levels of collections are left. The first
argument bounds the depth: a level takes one for an alias and one for a collection. -/
def data (t : Tree) : Nat → (room : Nat) → Node → Reading Data
  | 0, _, _ => failure
  | _ + 1, _, .scalar text style tag => StateT.lift (Scalar.data? text style tag)
  | fuel + 1, room, .sequence tag items =>
    if room = 0 ∨ !isPlainTag tag then failure
    else do
      let items ← items.mapM (data t fuel (room - 1))
      return .seq items
  | fuel + 1, room, .mapping tag entries =>
    if room = 0 ∨ !isPlainTag tag then failure
    else do
      let entries ← entries.mapM fun (key, value) => do
        let key ← data t fuel (room - 1) key
        let value ← data t fuel (room - 1) value
        return (key, value)
      return .map entries
  | fuel + 1, room, .alias number => do
    let node ← t.follow (.alias number)
    data t fuel room node

def dataOf (t : Tree) (room : Nat) (node : Node) : Reading Data :=
  t.data (2 * room + 2) room node

/-- The text of a scalar, whatever it means. -/
def text (t : Tree) (node : Node) : Reading String := do
  match ← t.follow node with
  | .scalar text _ _ => return text
  | _ => failure

/-- The text of a scalar, or nothing for a plain scalar that means null. -/
def optionalText (t : Tree) (node : Node) : Reading (Option String) := do
  match ← t.follow node with
  | .scalar text style tag =>
    if style ≠ .plain then return some text
    else if tag = some (Scalar.commonTag "null") then
      if Scalar.isNull text then return none else failure
    else if tag.isSome then return some text
    else return if text = "" ∨ Scalar.isNull text then none else some text
  | _ => failure

/-- The truth value that a plain scalar means, or a literal one with the tag for it. -/
def flag (t : Tree) (node : Node) : Reading Bool := do
  match ← t.follow node with
  | .scalar text style tag =>
    if style = .plain ∨ (style = .literal ∧ tag = some (Scalar.commonTag "bool")) then
      StateT.lift (Scalar.flag? text)
    else failure
  | _ => failure

/-- The items of a sequence, each read alike. A plain scalar without text has none. -/
def list {α : Type} (t : Tree) (read : Node → Reading α) (node : Node) : Reading (List α) := do
  match ← t.follow node with
  | .sequence _ items => items.mapM read
  | .scalar "" .plain _ => return []
  | _ => failure

end Tree

end Stepwise.Yaml
