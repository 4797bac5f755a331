import Stepwise.Decimal.Binary64
import Stepwise.SortedMap

/-!
# Values

What a document holds: the values of JSON, with integers and floating-point numbers apart. The
fields of an object have an order, which texts show and which equality ignores: `a ≈ b` compares the
canonical forms, in which fields are sorted by name and zero has no sign. An integer never equals a
floating-point number.
-/

namespace Stepwise

/-- An integer or a finite floating-point number. -/
inductive Number where
  | int (n : Int)
  | float (x : Binary64)
deriving DecidableEq, Repr

/-- The number with the sign of zero forgotten. -/
def Number.canonical : Number → Number
  | .int n => .int n
  | .float x => .float x.unsignedZero

inductive Value where
  | null
  | bool (b : Bool)
  | num (n : Number)
  | str (s : String)
  | arr (items : List Value)
  | obj (fields : List (String × Value))
deriving Repr

/-- Named values in their own order. -/
abbrev Fields := List (String × Value)

namespace Value

mutual

/-- Equality of values in every detail, the order of fields included, is decidable. -/
def decEq : (a b : Value) → Decidable (a = b)
  | .null, .null => isTrue rfl
  | .bool a, .bool b => decidable_of_iff (a = b) (Value.bool.injEq a b ▸ Iff.rfl)
  | .num a, .num b => decidable_of_iff (a = b) (Value.num.injEq a b ▸ Iff.rfl)
  | .str a, .str b => decidable_of_iff (a = b) (Value.str.injEq a b ▸ Iff.rfl)
  | .arr a, .arr b =>
    match decEqItems a b with
    | isTrue h => isTrue (congrArg Value.arr h)
    | isFalse h => isFalse fun same => h (Value.arr.inj same)
  | .obj a, .obj b =>
    match decEqFields a b with
    | isTrue h => isTrue (congrArg Value.obj h)
    | isFalse h => isFalse fun same => h (Value.obj.inj same)
  | .null, .bool _ | .null, .num _ | .null, .str _ | .null, .arr _ | .null, .obj _
  | .bool _, .null | .bool _, .num _ | .bool _, .str _ | .bool _, .arr _ | .bool _, .obj _
  | .num _, .null | .num _, .bool _ | .num _, .str _ | .num _, .arr _ | .num _, .obj _
  | .str _, .null | .str _, .bool _ | .str _, .num _ | .str _, .arr _ | .str _, .obj _
  | .arr _, .null | .arr _, .bool _ | .arr _, .num _ | .arr _, .str _ | .arr _, .obj _
  | .obj _, .null | .obj _, .bool _ | .obj _, .num _ | .obj _, .str _ | .obj _, .arr _ =>
    isFalse nofun

def decEqItems : (a b : List Value) → Decidable (a = b)
  | [], [] => isTrue rfl
  | [], _ :: _ | _ :: _, [] => isFalse nofun
  | a :: as, b :: bs =>
    match decEq a b, decEqItems as bs with
    | isTrue h, isTrue hs => isTrue (h ▸ hs ▸ rfl)
    | isFalse h, _ => isFalse fun same => h (List.cons.inj same).1
    | _, isFalse hs => isFalse fun same => hs (List.cons.inj same).2

def decEqFields : (a b : List (String × Value)) → Decidable (a = b)
  | [], [] => isTrue rfl
  | [], _ :: _ | _ :: _, [] => isFalse nofun
  | (k, a) :: as, (l, b) :: bs =>
    if names : k = l then
      match decEq a b, decEqFields as bs with
      | isTrue h, isTrue hs => isTrue (names ▸ h ▸ hs ▸ rfl)
      | isFalse h, _ => isFalse fun same => h (Prod.mk.inj (List.cons.inj same).1).2
      | _, isFalse hs => isFalse fun same => hs (List.cons.inj same).2
    else isFalse fun same => names (Prod.mk.inj (List.cons.inj same).1).1

end

instance : DecidableEq Value := decEq

mutual

/-- The value with all fields sorted by name and no sign on zero. -/
def canonical : Value → Value
  | .null => .null
  | .bool b => .bool b
  | .num n => .num n.canonical
  | .str s => .str s
  | .arr items => .arr (canonicalItems items)
  | .obj fields => .obj (canonicalFields fields)

def canonicalItems : List Value → List Value
  | [] => []
  | item :: items => item.canonical :: canonicalItems items

/-- The canonical form of fields: sorted by name, each name once. -/
def canonicalFields : List (String × Value) → List (String × Value)
  | [] => []
  | (name, value) :: fields => NamedList.put name value.canonical (canonicalFields fields)

end

/-- Two values are equal as values when their canonical forms are the same. -/
instance : Setoid Value where
  r a b := a.canonical = b.canonical
  iseqv := ⟨fun _ => rfl, Eq.symm, Eq.trans⟩

instance (a b : Value) : Decidable (a ≈ b) :=
  inferInstanceAs (Decidable (a.canonical = b.canonical))

theorem equiv_iff {a b : Value} : a ≈ b ↔ a.canonical = b.canonical :=
  Iff.rfl

def str? : Value → Option String
  | .str s => some s
  | _ => none

/-- The integer of a number value that fits 64 bits with a sign. -/
def int64? : Value → Option Int
  | .num (.int n) => if -0x8000000000000000 ≤ n ∧ n < 0x8000000000000000 then some n else none
  | _ => none

mutual

/-- Whether no object inside the value repeats a field name. -/
def WellFormed : Value → Prop
  | .arr items => WellFormedItems items
  | .obj fields => (fields.map (·.1)).Nodup ∧ WellFormedFields fields
  | _ => True

def WellFormedItems : List Value → Prop
  | [] => True
  | item :: items => item.WellFormed ∧ WellFormedItems items

def WellFormedFields : List (String × Value) → Prop
  | [] => True
  | (_, value) :: fields => value.WellFormed ∧ WellFormedFields fields

end

end Value

end Stepwise
