import Stepwise.Value

/-!
# Numbers in JSON texts

A number written without point and exponent is an integer when it fits 64 bits, with a sign or
without one; minus zero and all others are floating-point numbers. Those are read from as many
leading digits as fit 64 bits, rounded, and scaled by one power of ten, rounded too. So a text of
more than fifteen digits or with a large exponent may be read as a neighbour of the nearest number.
-/

namespace Stepwise.Json

/-- A number as it is written: its sign and its runs of digits. -/
structure Numeral where
  negative : Bool
  whole : List Char
  /-- The digits after the point, none when there is no point. -/
  fraction : List Char
  /-- The sign of the exponent, minus being `true`, and its digits. -/
  power : Option (Bool × List Char)
deriving DecidableEq, Repr

namespace Numeral

/-- The number that decimal digits denote. -/
def digitsValue (digits : List Char) : Nat :=
  digits.foldl (fun n c => 10 * n + (c.toNat - '0'.toNat)) 0

/-- Take digits into a number for as long as it fits 64 bits: the number and the digits left. -/
def absorb : Nat → List Char → Nat × List Char
  | n, [] => (n, [])
  | n, c :: rest =>
    let next := 10 * n + (c.toNat - '0'.toNat)
    if next ≤ 0xFFFFFFFFFFFFFFFF then absorb next rest else (n, c :: rest)

/-- The number nearest to a power of ten up to `10 ^ 308`. -/
def powerOfTen (exponent : Nat) : Binary64 :=
  (Binary64.ofNat? (Nat.pow 10 exponent)).getD .zero

/-- A magnitude times a power of ten; nothing when it lies beyond the greatest number. Below
`10 ^ -308` the division is made in two steps, of which the first is by `10 ^ 308`; after two such
steps nothing is left of a 64-bit integer. -/
def scale? (x : Binary64) (exponent : Int) : Option Binary64 :=
  if x.place.val = 0 then some x
  else if 308 < exponent then none
  else if 0 ≤ exponent then x.mul? (powerOfTen exponent.toNat)
  else if -308 ≤ exponent then x.div? (powerOfTen (-exponent).toNat)
  else if -616 ≤ exponent then
    (x.div? (powerOfTen 308)).bind (·.div? (powerOfTen (-exponent - 308).toNat))
  else some .zero

/-- The magnitude of the written number as a floating-point number. -/
def magnitude? (n : Numeral) : Option Binary64 :=
  let (leading, dropped) := absorb 0 n.whole
  let (significand, ignored) := absorb leading n.fraction
  let shift : Int := dropped.length - (n.fraction.length - ignored.length : Nat)
  match n.power with
  | none => (Binary64.ofNat? significand).bind (scale? · shift)
  | some (minus, digits) =>
    let power := digitsValue digits
    if power ≤ 0x7FFFFFFF then
      let exponent := if minus then shift - power else shift + power
      (Binary64.ofNat? significand).bind (scale? · exponent)
    else if significand ≠ 0 ∧ !minus then none
    else some .zero

def number? (n : Numeral) : Option Number :=
  let value := digitsValue n.whole
  let isInteger := n.fraction.isEmpty && n.power.isNone
  if isInteger ∧ !n.negative ∧ value ≤ 0xFFFFFFFFFFFFFFFF then some (.int value)
  else if isInteger ∧ n.negative ∧ value ≠ 0 ∧ value ≤ 0x8000000000000000 then some (.int (-value))
  else n.magnitude?.map fun x => .float (if n.negative then x.neg else x)

end Numeral

end Stepwise.Json
