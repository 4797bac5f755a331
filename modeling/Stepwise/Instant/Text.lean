import Stepwise.Instant.Basic
import Stepwise.Json.Numeral
import Stepwise.Text.Blank

/-!
# Texts of instants

The texts are those of RFC 3339. Written instants are in UTC, with the fraction of a second in as
many groups of three digits as it needs. `parse?` reads exactly that format; `parseLenient?` also
allows blanks between the numbers, short numbers and years with a sign.
-/

namespace Stepwise.Instant

/-- The decimal digits of a number, with zeros in front up to the given length. -/
def padded (length n : Nat) : List Char :=
  let digits := Nat.toDigits 10 n
  List.replicate (length - digits.length) '0' ++ digits

/-- A year of four digits; years before 0 and after 9999 have a sign. -/
def yearText (year : Int) : List Char :=
  if 0 ≤ year ∧ year ≤ 9999 then padded 4 year.toNat
  else (if year < 0 then '-' else '+') :: padded 4 year.natAbs

/-- The fraction of a second after its point, nothing when it is zero. -/
def fractionText (nanos : Nat) : List Char :=
  if nanos = 0 then []
  else if nanos % 1000000 = 0 then '.' :: padded 3 (nanos / 1000000)
  else if nanos % 1000 = 0 then '.' :: padded 6 (nanos / 1000)
  else '.' :: padded 9 nanos

def dateText (t : Instant) : List Char :=
  yearText t.date.year ++ ['-'] ++ padded 2 t.date.month ++ ['-'] ++ padded 2 t.date.day

def clockText (t : Instant) : List Char :=
  padded 2 t.hour ++ [':'] ++ padded 2 t.minute ++ [':'] ++ padded 2 t.second

/-- The text with the given sign of UTC. -/
def textWith (zone : String) (t : Instant) : String :=
  String.ofList (t.dateText ++ ['T'] ++ t.clockText ++ fractionText t.nanos) ++ zone

/-- The text that is stored, with UTC as a numeric offset. -/
def storedText (t : Instant) : String :=
  t.textWith "+00:00"

/-- The text that is shown in reports. -/
def text (t : Instant) : String :=
  t.textWith "Z"

/-- The text that is shown to people, without fraction. -/
def plainText (t : Instant) : String :=
  String.ofList (t.dateText ++ [' '] ++ t.clockText) ++ " UTC"

/-- Fourteen digits from the year to the second. -/
def stamp (t : Instant) : String :=
  String.ofList (yearText t.date.year ++ padded 2 t.date.month ++ padded 2 t.date.day ++
    padded 2 t.hour ++ padded 2 t.minute ++ padded 2 t.second)

/-- A number of at least `least` and at most `most` digits, and the text after it. -/
def number? (least most : Nat) (s : List Char) : Option (Nat × List Char) :=
  let digits := (s.takeWhile Char.isDigit).take most
  if digits.length < least then none
  else some (Json.Numeral.digitsValue digits, s.drop digits.length)

/-- The text after a character that has to stand in front. -/
def expect? (c : Char) : List Char → Option (List Char)
  | [] => none
  | d :: rest => if c = d then some rest else none

/-- The text after the character between date and time. -/
def afterDate? : List Char → Option (List Char)
  | c :: rest => if c = 'T' ∨ c = 't' ∨ c = ' ' then some rest else none
  | [] => none

/-- The nanoseconds that a fraction gives, of which nine digits count, and the text after it. -/
def fraction? : List Char → Option (Nat × List Char)
  | '.' :: s =>
    let digits := s.takeWhile Char.isDigit
    if digits.isEmpty then none
    else
      let leading := digits.take 9
      some (Json.Numeral.digitsValue leading * Nat.pow 10 (9 - leading.length),
        s.drop digits.length)
  | s => some (0, s)

/-- The offset in minutes, and the text after it; `between` skips what separates hours from
minutes. -/
def offset? (between : List Char → Option (List Char)) : List Char → Option (Int × List Char)
  | 'Z' :: s | 'z' :: s => some (0, s)
  | sign :: s => do
    let negative ← if sign = '+' then some false
      else if sign = '-' ∨ sign = '\u2212' then some true else none
    let (hours, s) ← number? 2 2 s
    let s ← between s
    let (minutes, s) ← number? 2 2 s
    if hours < 24 ∧ minutes < 60 then
      let offset : Int := (hours * 60 + minutes : Nat)
      return (if negative then -offset else offset, s)
    else none
  | [] => none

/-- The instant of a valid reading at an offset. -/
def ofReading? (t : Instant) (offset : Int) : Option Instant :=
  if t.isValid && t.isInRange then
    let instant := t.ofLocal offset
    if instant.isInRange then some instant else none
  else none

/-- The instant that the whole text names. -/
def parse? (text : String) : Option Instant := do
  let (year, s) ← number? 4 4 text.toList
  let (month, s) ← number? 2 2 (← expect? '-' s)
  let (day, s) ← number? 2 2 (← expect? '-' s)
  let (hour, s) ← number? 2 2 (← afterDate? s)
  let (minute, s) ← number? 2 2 (← expect? ':' s)
  let (second, s) ← number? 2 2 (← expect? ':' s)
  let (nanos, s) ← fraction? s
  let (offset, s) ← offset? (expect? ':') s
  if s.isEmpty then ofReading? ⟨⟨year, month, day⟩, hour, minute, second, nanos⟩ offset else none

/-- The text after leading blanks. -/
def skipBlanks (s : List Char) : List Char :=
  s.dropWhile Text.isBlank

/-- A number of one or two digits after blanks, and the text after it. -/
def shortNumber? (s : List Char) : Option (Nat × List Char) :=
  number? 1 2 (skipBlanks s)

/-- The text after a character that may stand after blanks. -/
def expectAfterBlanks? (c : Char) (s : List Char) : Option (List Char) :=
  expect? c (skipBlanks s)

/-- A year of up to four digits, or of any number of digits after a sign, and the text after it. -/
def lenientYear? (s : List Char) : Option (Int × List Char) :=
  match skipBlanks s with
  | '-' :: s => (number? 1 s.length s).map fun (year, s) => (-(year : Int), s)
  | '+' :: s => (number? 1 s.length s).map fun (year, s) => ((year : Int), s)
  | s => (number? 1 4 s).map fun (year, s) => ((year : Int), s)

/-- The offset in minutes after blanks, UTC also under its name, and the text after it. -/
def lenientOffset? (s : List Char) : Option (Int × List Char) :=
  let s := skipBlanks s
  if (s.take 3).map Char.toUpper = ['U', 'T', 'C'] then some (0, s.drop 3)
  else offset? (fun s => some (s.dropWhile fun c => c = ':' || Text.isBlank c)) s

/-- The instant that the whole text names, in the wider format. -/
def parseLenient? (text : String) : Option Instant := do
  let (year, s) ← lenientYear? text.toList
  let (month, s) ← shortNumber? (← expectAfterBlanks? '-' s)
  let (day, s) ← shortNumber? (← expectAfterBlanks? '-' s)
  let (hour, s) ← shortNumber? (← afterDate? s)
  let (minute, s) ← shortNumber? (← expectAfterBlanks? ':' s)
  let (second, s) ← shortNumber? (← expectAfterBlanks? ':' s)
  let (nanos, s) ← fraction? s
  let (offset, s) ← lenientOffset? s
  if (skipBlanks s).isEmpty then
    ofReading? ⟨⟨year, month, day⟩, hour, minute, second, nanos⟩ offset
  else none

end Stepwise.Instant
