import Stepwise.Data
import Stepwise.Json.Form

/-!
# Data from JSON texts

Arrays and objects may be nested up to 127 deep. A number that is too large, a string with half of a
pair of units and what is nested deeper cannot be read.
-/

namespace Stepwise.Json

/-- The text that the pieces of a string make. -/
def Piece.data (pieces : List Piece) : Data :=
  match Piece.text? pieces with
  | some text => .str text
  | none => .unreadable

/-- The number that is written. -/
def Numeral.data (n : Numeral) : Data :=
  match n.number? with
  | some (.int n) => .int n
  | some (.float x) => .float x
  | none => .unreadable

namespace Form

mutual

/-- The data that a form writes, inside of which `room` levels of nesting are left. -/
def data (room : Nat) : Form → Data
  | .null => .null
  | .bool b => .bool b
  | .number n => n.data
  | .string pieces => Piece.data pieces
  | .array items => if room = 0 then .unreadable else .seq (itemsData (room - 1) items)
  | .object fields => if room = 0 then .unreadable else .map (fieldsData (room - 1) fields)

def itemsData (room : Nat) : List Form → List Data
  | [] => []
  | item :: items => data room item :: itemsData room items

def fieldsData (room : Nat) : List (List Piece × Form) → List (Data × Data)
  | [] => []
  | (name, form) :: fields => (Piece.data name, data room form) :: fieldsData room fields

end

/-- The levels of nesting that a text may have. -/
def maxNesting : Nat := 127

end Form

/-- The data that a text writes, if it is a JSON text. -/
def readData? (text : String) : Option Data :=
  (Form.read? text).map (Form.data Form.maxNesting)

def readValue? (text : String) : Option Value :=
  (readData? text).bind Data.value?

end Stepwise.Json
