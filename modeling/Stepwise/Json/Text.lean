import Stepwise.Decimal.Shortest
import Stepwise.Text.Quoted
import Stepwise.Value

/-!
# Texts of values

Three texts of a value: JSON on one line, JSON with one item or field a line, and the text that
labels every value with its kind, which messages use to show the values under an index.
-/

namespace Stepwise

/-- Numbers are written positionally from `10 ^ -5` up to below `10 ^ 16`. -/
def Number.layout : Decimal.Layout :=
  ⟨-5, 16⟩

/-- The text of a number: an integer's digits, or the shortest text of a floating-point number. -/
def Number.text : Number → String
  | .int n => toString n
  | .float x => x.render Number.layout

namespace Json

/-- How one character is written inside a JSON string. -/
def stringChar (c : Char) : List Char :=
  match c with
  | '"' => ['\\', '"']
  | '\\' => ['\\', '\\']
  | '\x08' => ['\\', 'b']
  | '\x0c' => ['\\', 'f']
  | '\n' => ['\\', 'n']
  | '\r' => ['\\', 'r']
  | '\t' => ['\\', 't']
  | c =>
    if c.toNat < 0x10 then ['\\', 'u', '0', '0', '0'] ++ Text.hex c.toNat
    else if c.toNat < 0x20 then ['\\', 'u', '0', '0'] ++ Text.hex c.toNat
    else [c]

/-- A string between quotes; control characters, quotes and backslashes are escaped. -/
def stringText (s : String) : String :=
  String.ofList ('"' :: (s.toList.flatMap stringChar ++ ['"']))

def boolText (b : Bool) : String :=
  if b then "true" else "false"

end Json

namespace Value

mutual

/-- JSON on one line, without blanks. -/
def json : Value → String
  | .null => "null"
  | .bool b => Json.boolText b
  | .num n => n.text
  | .str s => Json.stringText s
  | .arr items => "[" ++ ",".intercalate (jsonItems items) ++ "]"
  | .obj fields => "\x7b" ++ ",".intercalate (jsonFields fields) ++ "\x7d"

def jsonItems : List Value → List String
  | [] => []
  | item :: items => item.json :: jsonItems items

def jsonFields : List (String × Value) → List String
  | [] => []
  | (name, value) :: fields => (Json.stringText name ++ ":" ++ value.json) :: jsonFields fields

end

/-- Lines between brackets, each indented by two more blanks than the closing one. -/
def block (opening closing : String) (indent : String) (lines : List String) : String :=
  if lines.isEmpty then opening ++ closing
  else
    opening ++ "\n" ++ ",\n".intercalate (lines.map (indent ++ "  " ++ ·)) ++ "\n" ++ indent ++
      closing

mutual

/-- JSON with one item or field a line; `indent` is what stands before the closing bracket. -/
def jsonLines (indent : String) : Value → String
  | .null => "null"
  | .bool b => Json.boolText b
  | .num n => n.text
  | .str s => Json.stringText s
  | .arr items => block "[" "]" indent (jsonLinesItems (indent ++ "  ") items)
  | .obj fields => block "\x7b" "\x7d" indent (jsonLinesFields (indent ++ "  ") fields)

def jsonLinesItems (indent : String) : List Value → List String
  | [] => []
  | item :: items => item.jsonLines indent :: jsonLinesItems indent items

def jsonLinesFields (indent : String) : List (String × Value) → List String
  | [] => []
  | (name, value) :: fields =>
    (Json.stringText name ++ ": " ++ value.jsonLines indent) :: jsonLinesFields indent fields

end

mutual

/-- The text that labels the value and all inside with their kinds. -/
def labelled : Value → String
  | .null => "Null"
  | .bool b => "Bool(" ++ Json.boolText b ++ ")"
  | .num n => "Number(" ++ n.text ++ ")"
  | .str s => "String(" ++ Text.quoted s ++ ")"
  | .arr items => "Array [" ++ ", ".intercalate (labelledItems items) ++ "]"
  | .obj fields => "Object \x7b" ++ ", ".intercalate (labelledFields fields) ++ "\x7d"

def labelledItems : List Value → List String
  | [] => []
  | item :: items => item.labelled :: labelledItems items

def labelledFields : List (String × Value) → List String
  | [] => []
  | (name, value) :: fields =>
    (Text.quoted name ++ ": " ++ value.labelled) :: labelledFields fields

end

end Value

end Stepwise
