import Stepwise.Decimal.Binary64

/-!
# Shortest decimal text

The decimal written for a floating-point number is the shortest that reads back as it; of several
equally short the nearest, and of two equally near the even one. `Layout.render` then places the
point: numbers of moderate size are written positionally, all others with an exponent.
-/

namespace Stepwise

/-- The decimal `digits * 10 ^ exponent`. -/
structure Decimal where
  digits : Nat
  exponent : Int
deriving DecidableEq, Repr

namespace Decimal

/-- The decimal without trailing zeros among its digits. -/
def trimZeros (d : Decimal) : Decimal :=
  let zeros := ((Nat.toDigits 10 d.digits).reverse.takeWhile (· = '0')).length
  if d.digits = 0 then ⟨0, 0⟩ else ⟨d.digits / Nat.pow 10 zeros, d.exponent + zeros⟩

/-- The exponent of the greatest power of ten that is at most the positive quotient. -/
def leadingExponent (numerator denominator : Nat) : Int :=
  if denominator ≤ numerator then
    (Nat.toDigits 10 (numerator / denominator)).length - 1
  else
    -((Nat.toDigits 10 ((denominator - 1) / numerator)).length : Int)

/-- The reals that round to a magnitude, as numerators over four times its denominator: from
`low` to `high`, the ends included or not. -/
structure Interval where
  low : Nat
  high : Nat
  closed : Bool

/-- The interval of the reals that round to the magnitude of `x`. -/
def Interval.around (x : Binary64) : Interval :=
  let unit := Nat.pow 2 x.exponent.toNat
  let below := if x.significand = Binary64.binade ∧ -1074 < x.exponent then 1 else 2
  ⟨(4 * x.significand - below) * unit, (4 * x.significand + 2) * unit, x.significand % 2 = 0⟩

def Interval.contains (i : Interval) (scale numerator denominator : Nat) : Bool :=
  let point := numerator * scale
  let low := i.low * denominator
  let high := i.high * denominator
  if i.closed then low ≤ point && point ≤ high else low < point && point < high

/-- Of the two multiples of `10 ^ exponent` next to the magnitude, the one that reads back as it:
the nearer if both do, the even one if they are equally near. -/
def onGrid? (x : Binary64) (exponent : Int) : Option Decimal :=
  let num := x.numerator * Nat.pow 10 (-exponent).toNat
  let den := x.denominator * Nat.pow 10 exponent.toNat
  let reads (n : Nat) : Bool :=
    (Interval.around x).contains (4 * x.denominator) (n * Nat.pow 10 exponent.toNat)
      (Nat.pow 10 (-exponent).toNat)
  let low := num / den
  match reads low, reads (low + 1) with
  | true, true => some ⟨roundQuotient num den, exponent⟩
  | true, false => some ⟨low, exponent⟩
  | false, true => some ⟨low + 1, exponent⟩
  | false, false => none

/-- The shortest decimal that reads back as the magnitude of `x`. Seventeen digits always do. -/
def shortest (x : Binary64) : Decimal :=
  if x.place.val = 0 then ⟨0, 0⟩
  else
    let top := leadingExponent x.numerator x.denominator
    let found := (List.range 17).findSome? fun (n : Nat) => onGrid? x (top - n)
    (found.getD ⟨roundQuotient (x.numerator * Nat.pow 10 (16 - top).toNat)
      (x.denominator * Nat.pow 10 (top - 16).toNat), top - 16⟩).trimZeros

/-- Where positional notation begins and ends: it is used from `10 ^ least` up to below
`10 ^ most`. -/
structure Layout where
  least : Int
  most : Int

/-- The digits with the point after the first `whole` of them; zeros fill the gap when the point
lies outside, and at least one digit stands on each side. -/
def positional (digits : List Char) (whole : Int) : List Char :=
  if whole ≤ 0 then
    ['0', '.'] ++ List.replicate (-whole).toNat '0' ++ digits
  else if digits.length ≤ whole then
    digits ++ List.replicate (whole.toNat - digits.length) '0' ++ ['.', '0']
  else
    digits.take whole.toNat ++ ['.'] ++ digits.drop whole.toNat

/-- One digit, the others after a point if there are any, and the signed power of ten. -/
def scientific (digits : List Char) (power : Int) : List Char :=
  let fraction := if digits.length ≤ 1 then [] else '.' :: digits.drop 1
  let sign := if power < 0 then '-' else '+'
  digits.take 1 ++ fraction ++ ['e', sign] ++ Nat.toDigits 10 power.natAbs

def Layout.render (f : Layout) (d : Decimal) : List Char :=
  let digits := Nat.toDigits 10 d.digits
  if d.digits = 0 then ['0', '.', '0']
  else
    let whole := digits.length + d.exponent
    if f.least < whole ∧ whole ≤ f.most then positional digits whole
    else scientific digits (whole - 1)

end Decimal

/-- The shortest text that reads back as `x`, in the given layout. -/
def Binary64.render (f : Decimal.Layout) (x : Binary64) : String :=
  let text := f.render (Decimal.shortest x)
  String.ofList (if x.negative then '-' :: text else text)

end Stepwise
