/-!
# Finite binary floating-point numbers

A `Binary64` is a finite number of the 64-bit binary format: a sign and a magnitude. The finite
magnitudes in ascending order are numbered from zero, and a magnitude is held by its place in that
order, so every value but zero has one form. Arithmetic is on exact quotients of natural numbers,
rounded once: to the nearest representable magnitude, a tie going to the even significand.
-/

namespace Stepwise

/-- Two to the 52: the number of magnitudes from a power of two up to below the next. -/
def Binary64.binade : Nat :=
  0x10000000000000

/-- A finite number of the 64-bit binary floating-point format. -/
structure Binary64 where
  /-- Whether the sign is minus; zero has both signs. -/
  negative : Bool
  /-- The place of the magnitude in ascending order. -/
  place : Fin (2047 * Binary64.binade)
deriving DecidableEq, Repr

/-- The integer nearest to a quotient; of two equally near, the even one. -/
def roundQuotient (numerator denominator : Nat) : Nat :=
  let floor := numerator / denominator
  let twice := 2 * (numerator % denominator)
  if twice < denominator then floor
  else if denominator < twice then floor + 1
  else floor + floor % 2

namespace Binary64

def zero : Binary64 :=
  ⟨false, ⟨0, by decide⟩⟩

/-- The magnitude is `significand * 2 ^ exponent`. -/
def significand (x : Binary64) : Nat :=
  if x.place.val < binade then x.place.val else x.place.val % binade + binade

/-- The magnitude is `significand * 2 ^ exponent`. -/
def exponent (x : Binary64) : Int :=
  (x.place.val / binade - 1 : Nat) - 1074

/-- The magnitude as a quotient: its numerator. -/
def numerator (x : Binary64) : Nat :=
  x.significand * Nat.pow 2 x.exponent.toNat

/-- The magnitude as a quotient: its denominator. -/
def denominator (x : Binary64) : Nat :=
  Nat.pow 2 (-x.exponent).toNat

/-- The number with the sign plus, which equals zero or minus zero alike. -/
def unsignedZero (x : Binary64) : Binary64 :=
  if x.place.val = 0 then zero else x

def neg (x : Binary64) : Binary64 :=
  { x with negative := !x.negative }

/-- The greatest exponent of a power of two that is at most the positive quotient. -/
def logFloor (numerator denominator : Nat) : Int :=
  let e : Int := (numerator.log2 : Int) - denominator.log2
  if denominator * Nat.pow 2 e.toNat ≤ numerator * Nat.pow 2 (-e).toNat then e else e - 1

/-- The place of the magnitude nearest to a quotient, as if there were no greatest one. -/
def nearestPlace (numerator denominator : Nat) : Nat :=
  if numerator = 0 then 0
  else
    let q := max (logFloor numerator denominator - 52) (-1074)
    (q + 1074).toNat * binade +
      roundQuotient (numerator * Nat.pow 2 (-q).toNat) (denominator * Nat.pow 2 q.toNat)

/-- The number nearest to a quotient, or nothing when it lies beyond the greatest. -/
def nearest? (numerator denominator : Nat) : Option Binary64 :=
  let place := nearestPlace numerator denominator
  if h : place < 2047 * binade then some ⟨false, ⟨place, h⟩⟩ else none

def ofNat? (n : Nat) : Option Binary64 :=
  nearest? n 1

/-- The number nearest to the product of two magnitudes. -/
def mul? (x y : Binary64) : Option Binary64 :=
  nearest? (x.numerator * y.numerator) (x.denominator * y.denominator)

/-- The number nearest to the quotient of two magnitudes. -/
def div? (x y : Binary64) : Option Binary64 :=
  nearest? (x.numerator * y.denominator) (x.denominator * y.numerator)

/-- The number nearest to `digits * 10 ^ exponent`. Quotients far outside the range are settled by
the number of digits alone. -/
def ofDecimal? (digits : Nat) (exponent : Int) : Option Binary64 :=
  let top := (Nat.toDigits 10 digits).length + exponent
  if digits = 0 then some zero
  else if 310 < top then none
  else if top < -350 then some zero
  else nearest? (digits * Nat.pow 10 exponent.toNat) (Nat.pow 10 (-exponent).toNat)

end Binary64

end Stepwise
