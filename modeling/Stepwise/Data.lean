import Stepwise.Document.Fields

/-!
# Data

What a definition file or a JSON text says before it is given a meaning: scalars, sequences and
mappings, whose keys may be any data and may repeat. A part that cannot be read stands as
`unreadable`; it does no harm where nobody asks for it. A `Record` is data that fills named places,
either by name or in order; reading one refuses what fills a place twice.
-/

namespace Stepwise

/-- A tree of scalars, sequences and mappings. -/
inductive Data where
  | null
  | bool (b : Bool)
  | int (n : Int)
  | float (x : Binary64)
  /-- An infinity, or not a number. -/
  | nonFinite
  | str (s : String)
  | seq (items : List Data)
  | map (entries : List (Data × Data))
  /-- A part that is out of the range of what can be read. -/
  | unreadable
deriving Repr

namespace Data

mutual

/-- Whether all parts can be read. -/
def isReadable : Data → Bool
  | .unreadable => false
  | .seq items => areReadable items
  | .map entries => entriesAreReadable entries
  | _ => true

def areReadable : List Data → Bool
  | [] => true
  | item :: items => item.isReadable && areReadable items

def entriesAreReadable : List (Data × Data) → Bool
  | [] => true
  | (key, data) :: entries => key.isReadable && data.isReadable && entriesAreReadable entries

end

mutual

/-- The data that a value is. -/
def ofValue : Value → Data
  | .null => .null
  | .bool b => .bool b
  | .num (.int n) => .int n
  | .num (.float x) => .float x
  | .str s => .str s
  | .arr items => .seq (ofItems items)
  | .obj fields => .map (ofFields fields)

def ofItems : List Value → List Data
  | [] => []
  | item :: items => ofValue item :: ofItems items

def ofFields : List (String × Value) → List (Data × Data)
  | [] => []
  | (name, value) :: fields => (.str name, ofValue value) :: ofFields fields

end

mutual

/-- The value that data is; every key has to be a string, and of a repeated key the last value
counts. A document has no infinities, null stands for them. -/
def value? : Data → Option Value
  | .null | .nonFinite => some .null
  | .bool b => some (.bool b)
  | .int n => some (.num (.int n))
  | .float x => some (.num (.float x))
  | .str s => some (.str s)
  | .seq items => (items? items).map .arr
  | .map entries => (fields? entries).map fun fields => .obj (Fields.ofList fields)
  | .unreadable => none

def items? : List Data → Option (List Value)
  | [] => some []
  | item :: items =>
    match value? item, items? items with
    | some value, some values => some (value :: values)
    | _, _ => none

/-- The values of entries with their names, in order and with repetitions. -/
def fields? : List (Data × Data) → Option (List (String × Value))
  | [] => some []
  | (.str name, data) :: entries =>
    match value? data, fields? entries with
    | some value, some fields => some ((name, value) :: fields)
    | _, _ => none
  | _ :: _ => none

end

/-- The fields of a mapping. -/
def document? : Data → Option Document
  | .map entries => (fields? entries).map Fields.ofList
  | _ => none

def text? : Data → Option String
  | .str s => some s
  | _ => none

def flag? : Data → Option Bool
  | .bool b => some b
  | _ => none

/-- The integer, if it is in the range of a signed one of 64 bits. -/
def int64? : Data → Option Int
  | .int n => if -0x8000000000000000 ≤ n ∧ n < 0x8000000000000000 then some n else none
  | _ => none

/-- The items of a sequence, each read alike. -/
def list? {α : Type} (read : Data → Option α) : Data → Option (List α)
  | .seq items => items.mapM read
  | _ => none

end Data

/-- Data that fills named places. -/
inductive Record where
  /-- By name. -/
  | named (entries : List (Data × Data))
  /-- In the order of the places. -/
  | listed (items : List Data)
deriving Repr

namespace Record

/-- The record that a mapping or a sequence is. -/
def ofData? : Data → Option Record
  | .map entries => some (.named entries)
  | .seq items => some (.listed items)
  | _ => none

/-- What a record fills its places with. -/
abbrev Filled := List (String × Data)

/-- Fill the place, unless it is filled. -/
def Filled.fill? (filled : Filled) (place : String) (data : Data) : Option Filled :=
  if (NamedList.get? filled place).isSome then none else some ((place, data) :: filled)

/-- The data by place, for entries whose keys are names of places, numbers of places that are
counted from zero, or foreign to the record. Other keys are refused. -/
def places? (places numbered : List String) : List (Data × Data) → Option Filled
  | [] => some []
  | (key, data) :: rest => do
    let filled ← places? places numbered rest
    match key with
    | .str name => if name ∈ places then filled.fill? name data else some filled
    | .int n =>
      if n < 0 then none
      else match numbered[n.toNat]? with
        | some name => filled.fill? name data
        | none => some filled
    | _ => none

/-- The data by place: entries by name, or items in order, no more than there are places. -/
def read? (places : List String) : Record → Option Filled
  | .named entries => places? places places entries
  | .listed items => if places.length < items.length then none else some (places.zip items)

/-- The data by place, of a record that shares its entries with another one: by name only, all
numbers are foreign to it. -/
def readShared? (places : List String) : Record → Option Filled
  | .named entries => places? places [] entries
  | .listed _ => none

/-- What fills a place that has to be filled. -/
def Filled.need? {α : Type} (filled : Filled) (place : String) (read : Data → Option α) :
    Option α :=
  (NamedList.get? filled place).bind read

/-- What fills a place, or what stands there when nothing does. -/
def Filled.orElse? {α : Type} (filled : Filled) (place : String) (read : Data → Option α)
    (otherwise : α) : Option α :=
  match NamedList.get? filled place with
  | some data => read data
  | none => some otherwise

end Record

end Stepwise
