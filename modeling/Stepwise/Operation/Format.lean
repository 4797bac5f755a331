import Stepwise.Data
import Stepwise.Operation.Basic

/-!
# The written form of operations

Operations and their parts as values, and read back from data. A tagged record says by one of its
entries what it is, `op` for operations; the other entries fill the places of that kind. What is
usual may be left out of a text: the ascending order, a filter that passes everything, assignments
and removals when there are none.
-/

namespace Stepwise

/-! ### Writing -/

def SortOrder.toValue : SortOrder → Value
  | .ascending => .str "asc"
  | .descending => .str "desc"

def IndexKey.toValue (key : IndexKey) : Value :=
  .obj [("field", .str key.field), ("order", key.order.toValue)]

def Index.toFields (index : Index) : Fields :=
  [("name", .str index.name), ("keys", .arr (index.keys.map IndexKey.toValue)),
    ("unique", .bool index.unique)]

/-- The fields that write an update; what is empty is left out. -/
def Update.toFields (update : Update) : Fields :=
  (if update.set.isEmpty then [] else [("set", .obj update.set)]) ++
    (if update.unset.isEmpty then [] else [("unset", .arr (update.unset.map .str))])

def Operation.toValue : Operation → Value
  | .createCollection name =>
    .obj [("op", .str "create_collection"), ("collection", .str name)]
  | .dropCollection name =>
    .obj [("op", .str "drop_collection"), ("collection", .str name)]
  | .createIndex name index =>
    .obj ([("op", .str "create_index"), ("collection", .str name)] ++ index.toFields)
  | .dropIndex name index =>
    .obj [("op", .str "drop_index"), ("collection", .str name), ("name", .str index)]
  | .insertDocuments name documents =>
    .obj [("op", .str "insert_documents"), ("collection", .str name),
      ("documents", .arr (documents.map .obj))]
  | .updateDocuments name filter update =>
    .obj ([("op", .str "update_documents"), ("collection", .str name), ("filter", .obj filter)] ++
      update.toFields)
  | .deleteDocuments name filter =>
    .obj [("op", .str "delete_documents"), ("collection", .str name), ("filter", .obj filter)]

/-! ### Reading -/

/-- Whether data says nothing more about the entry it belongs to. Inside of a tagged record an empty
mapping does as well. -/
def Data.isNothing (tagged : Bool) : Data → Bool
  | .null => true
  | .map [] => tagged
  | _ => false

/-- The one of some names that data is: as a string, or as the only key of a mapping to nothing. In
a tagged record the key may be the number of the name. -/
def Data.choice? (tagged : Bool) (names : List String) : Data → Option String
  | .str name => if name ∈ names then some name else none
  | .map [(.str name, data)] =>
    if name ∈ names ∧ data.isNothing tagged then some name else none
  | .map [(.int n, data)] =>
    if tagged ∧ 0 ≤ n ∧ data.isNothing tagged then names[n.toNat]? else none
  | _ => none

def SortOrder.ofData? (tagged : Bool) (data : Data) : Option SortOrder :=
  (data.choice? tagged ["asc", "desc"]).map fun name =>
    if name = "asc" then .ascending else .descending

def IndexKey.ofData? (tagged : Bool) (data : Data) : Option IndexKey := do
  let filled ← (← Record.ofData? data).read? ["field", "order"]
  let field ← filled.need? "field" Data.text?
  let order ← filled.orElse? "order" (SortOrder.ofData? tagged) .ascending
  return { field, order }

def Index.places : List String :=
  ["name", "keys", "unique"]

def Index.ofFilled? (tagged : Bool) (filled : Record.Filled) : Option Index := do
  let name ← filled.need? "name" Data.text?
  let keys ← filled.need? "keys" (Data.list? (IndexKey.ofData? tagged))
  let unique ← filled.orElse? "unique" Data.flag? false
  return { name, keys, unique }

def Update.places : List String :=
  ["set", "unset"]

def Update.ofFilled? (filled : Record.Filled) : Option Update := do
  let set ← filled.orElse? "set" Data.document? []
  let unset ← filled.orElse? "unset" (Data.list? Data.text?) []
  return { set, unset }

def Index.ofData? (data : Data) : Option Index := do
  Index.ofFilled? false (← (← Record.ofData? data).read? Index.places)

def Update.ofData? (data : Data) : Option Update := do
  Update.ofFilled? (← (← Record.ofData? data).read? Update.places)

/-- A record with the name of what it is. -/
structure Tagged where
  tag : String
  record : Record
deriving Repr

namespace Tagged

/-- The entries without the one of the tag, and its data; there has to be exactly one. -/
def split? (name : String) : List (Data × Data) → Option (Data × List (Data × Data))
  | [] => none
  | (key, data) :: rest =>
    if key.text? = some name then
      if rest.any (·.1.text? = some name) then none else some (data, rest)
    else (split? name rest).map fun (tag, rest) => (tag, (key, data) :: rest)

/-- The tagged record that data is: a mapping with the tag as an entry, or a sequence that begins
with it. All parts have to be readable. -/
def ofData? (name : String) (data : Data) : Option Tagged :=
  if data.isReadable then
    match data with
    | .map entries => do
      let (tag, rest) ← split? name entries
      return ⟨← tag.text?, .named rest⟩
    | .seq (tag :: rest) => do return ⟨← tag.text?, .listed rest⟩
    | _ => none
  else none

end Tagged

def Operation.ofTagged? (tagged : Tagged) : Option Operation :=
  match tagged.tag with
  | "create_collection" => do
    let filled ← tagged.record.read? ["collection"]
    return .createCollection (← filled.need? "collection" Data.text?)
  | "drop_collection" => do
    let filled ← tagged.record.read? ["collection"]
    return .dropCollection (← filled.need? "collection" Data.text?)
  | "create_index" => do
    let filled ← tagged.record.readShared? ("collection" :: Index.places)
    return .createIndex (← filled.need? "collection" Data.text?) (← Index.ofFilled? true filled)
  | "drop_index" => do
    let filled ← tagged.record.read? ["collection", "name"]
    return .dropIndex (← filled.need? "collection" Data.text?) (← filled.need? "name" Data.text?)
  | "insert_documents" => do
    let filled ← tagged.record.read? ["collection", "documents"]
    return .insertDocuments (← filled.need? "collection" Data.text?)
      (← filled.need? "documents" (Data.list? Data.document?))
  | "update_documents" => do
    let filled ← tagged.record.readShared? ("collection" :: "filter" :: Update.places)
    return .updateDocuments (← filled.need? "collection" Data.text?)
      (← filled.orElse? "filter" Data.document? []) (← Update.ofFilled? filled)
  | "delete_documents" => do
    let filled ← tagged.record.read? ["collection", "filter"]
    return .deleteDocuments (← filled.need? "collection" Data.text?)
      (← filled.orElse? "filter" Data.document? [])
  | _ => none

def Operation.ofData? (data : Data) : Option Operation :=
  (Tagged.ofData? "op" data).bind Operation.ofTagged?

/-- The operation that a value writes. -/
def Operation.ofValue? (value : Value) : Option Operation :=
  Operation.ofData? (.ofValue value)

/-! ### Directions and reversibility -/

def Direction.ofData? (data : Data) : Option Direction :=
  (data.choice? false ["up", "down"]).map fun name => if name = "up" then .up else .down

def Direction.toValue (direction : Direction) : Value :=
  .str direction.name

def Reversibility.toValue : Reversibility → Value
  | .reversible => .obj [("kind", .str "reversible")]
  | .irreversible reason => .obj [("kind", .str "irreversible"), ("reason", .str reason)]

def Reversibility.ofData? (data : Data) : Option Reversibility := do
  let tagged ← Tagged.ofData? "kind" data
  match tagged.tag with
  | "reversible" =>
    match tagged.record with
    | .listed (_ :: _) => none
    | _ => return .reversible
  | "irreversible" =>
    let filled ← tagged.record.read? ["reason"]
    return .irreversible (← filled.need? "reason" Data.text?)
  | _ => none

end Stepwise
