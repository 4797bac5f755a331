import Stepwise.Operation.Format
import Stepwise.Sheet.Basic
import Stepwise.Yaml.Meaning

/-!
# Sheets in YAML

A sheet is a mapping from names to values; names that a sheet does not have are passed over with
their values. Where a text is expected, the text of any scalar will do.
-/

namespace Stepwise.Sheet

open Yaml (Node Tree Reading)

/-- The levels of collections that a document may have. -/
def maxNesting : Nat := 128

/-- The operation that a mapping or a sequence is, inside of which `room` levels are left. The value
of its tag is a text. -/
def operation (t : Tree) (room : Nat) (node : Node) : Reading Operation := do
  match ← t.follow node with
  | .mapping tag entries =>
    if Yaml.isPlainTag tag then
      let entries ← entries.mapM fun (key, value) => do
        let key ← t.dataOf (room - 1) key
        let value ← if key.text? = some "op" then Data.str <$> t.text value
          else t.dataOf (room - 1) value
        return (key, value)
      StateT.lift (Operation.ofData? (.map entries))
    else failure
  | .sequence tag (first :: rest) =>
    if Yaml.isPlainTag tag then
      let first ← t.text first
      let rest ← rest.mapM (t.dataOf (room - 1))
      StateT.lift (Operation.ofData? (.seq (.str first :: rest)))
    else failure
  | _ => failure

/-- The sheet with one more place filled; a place that is filled already is refused. -/
def fill (t : Tree) (filled : List String) (sheet : Sheet) (name : String) (value : Node) :
    Reading Sheet :=
  if name ∈ filled then failure
  else
    match name with
    | "description" => do return { sheet with description := ← t.optionalText value }
    | "reversible" => do return { sheet with reversible := ← t.flag value }
    | "reason" => do return { sheet with reason := ← t.optionalText value }
    | "up" => do return { sheet with up := ← t.list (operation t (maxNesting - 2)) value }
    | "down" => do return { sheet with down := ← t.list (operation t (maxNesting - 2)) value }
    | _ => pure sheet

def fillAll (t : Tree) : List String → Sheet → List (Node × Node) → Reading Sheet
  | _, sheet, [] => pure sheet
  | filled, sheet, (key, value) :: entries => do
    let name ← t.text key
    let sheet ← fill t filled sheet name value
    fillAll t (if name ∈ places then name :: filled else filled) sheet entries

/-- The sheet that a tree writes. An empty one writes a sheet that says nothing. -/
def ofTree? (t : Tree) : Option Sheet :=
  let reading : Reading Sheet := match t.root with
    | none => pure {}
    | some root => do
      match ← t.follow root with
      | .mapping _ entries => fillAll t [] {} entries
      | .scalar "" .plain _ => pure {}
      | _ => failure
  (reading.run (100 * t.size)).map (·.1)

def ofYaml? (text : String) : Option Sheet :=
  (Tree.ofText? text).bind ofTree?

end Stepwise.Sheet
