import Stepwise.Json.Form
import Stepwise.Yaml.Folding

/-!
# Quoted scalars

Between single quotes every character stands for itself, and a quote is written twice. Between
double quotes a backslash begins an escape; before a line break it takes the break out of the text.
-/

namespace Stepwise.Yaml.Quotes

def hexValue? (digits : List Char) : Option Nat :=
  digits.foldlM (fun n c => (Json.Form.hexDigit? c).map (16 * n + ·)) 0

/-- The character that an escape of so many hexadecimal digits stands for. -/
def coded? (length : Nat) (s : List Char) : Option (Char × Nat) := do
  let digits := s.take length
  let n ← hexValue? digits
  if digits.length = length ∧ n.isValidChar then some (Char.ofNat n, length + 1) else none

/-- The character that an escape stands for, and the number of characters after its backslash. -/
def escaped? : List Char → Option (Char × Nat)
  | [] => none
  | c :: rest =>
    match c with
    | '0' => some ('\x00', 1)
    | 'a' => some ('\x07', 1)
    | 'b' => some ('\x08', 1)
    | 't' | '\t' => some ('\t', 1)
    | 'n' => some ('\n', 1)
    | 'v' => some ('\x0b', 1)
    | 'f' => some ('\x0c', 1)
    | 'r' => some ('\r', 1)
    | 'e' => some ('\x1b', 1)
    | ' ' => some (' ', 1)
    | '"' => some ('"', 1)
    | '/' => some ('/', 1)
    | '\\' => some ('\\', 1)
    | 'N' => some ('\u0085', 1)
    | '_' => some ('\u00a0', 1)
    | 'L' => some ('\u2028', 1)
    | 'P' => some ('\u2029', 1)
    | 'x' => coded? 2 rest
    | 'u' => coded? 4 rest
    | 'U' => coded? 8 rest
    | _ => none

/-- How a word of a quoted scalar ends. -/
inductive WordEnd where
  | quote
  | blank
  /-- An escaped line break. -/
  | joined
deriving DecidableEq

/-- The word that begins here, up to a number of characters: its text, the place of its end, and how
it ends. -/
def word? (single : Bool) : Nat → Cursor → Option (List Char × Cursor × WordEnd)
  | 0, _ => none
  | fuel + 1, c =>
    match single, c.rest with
    | _, [] => some ([], c, .blank)
    | true, '\'' :: '\'' :: _ => do
      let (text, c, stop) ← word? single fuel (c.skip 2)
      some ('\'' :: text, c, stop)
    | true, '\'' :: _ => some ([], c, .quote)
    | false, '"' :: _ => some ([], c, .quote)
    | false, '\\' :: rest =>
      if rest.head?.any isBreak then some ([], c.next.lineBreak.2, .joined)
      else do
        let (char, length) ← escaped? rest
        let (text, c, stop) ← word? single fuel (c.skip (length + 1))
        some (char :: text, c, stop)
    | _, char :: _ =>
      if isSpaceOrTab char || isBreak char then some ([], c, .blank)
      else do
        let (text, c, stop) ← word? single fuel c.next
        some (char :: text, c, stop)

/-- What is left of a scalar: its text and the place after its closing quote. -/
def more? (single : Bool) : Nat → Cursor → Option (List Char × Cursor)
  | 0, _ => none
  | fuel + 1, c =>
    if c.atMarker || c.rest.isEmpty then none
    else do
      let (word, c, stop) ← word? single (c.rest.length + 1) c
      if c.rest.head? = some (if single then '\'' else '"') then some (word, c.next)
      else
        let gap : Gap := if stop = .joined then { breaks := some ([], []) } else {}
        let (gap, c) ← gap.read? 0 c.rest.length c
        let (rest, c) ← more? single fuel c
        some (word ++ gap.text ++ rest, c)

/-- The scalar after an opening quote: its text and the place after its closing quote. -/
def read? (single : Bool) (c : Cursor) : Option (List Char × Cursor) :=
  more? single (c.rest.length + 1) c

end Stepwise.Yaml.Quotes
