/-!
# UTF-8

Texts from octets: `decode?` refuses what is not UTF-8, `decodeLossy` shows a replacement
character for every part that is not. Surrogates and overlong forms are refused, so every text has
one encoded form.
-/

namespace Stepwise.Text.Utf8

def isTail (b : UInt8) : Bool :=
  0x80 ≤ b && b ≤ 0xBF

/-- The six bits that a continuing octet adds. -/
def tailBits (b : UInt8) : Nat :=
  b.toNat % 64

/-- The shape of a character announced by its first octet: how many octets follow it, the bounds of
the second octet, and the bits of the first. -/
structure Lead where
  tails : Nat
  low : UInt8
  high : UInt8
  bits : Nat

/-- What the first octet of a character announces; a continuing octet and one that never occurs
announce nothing. -/
def Lead.of? (b : UInt8) : Option Lead :=
  if b < 0x80 then some ⟨0, 0x80, 0xBF, b.toNat⟩
  else if b < 0xC2 then none
  else if b < 0xE0 then some ⟨1, 0x80, 0xBF, b.toNat % 32⟩
  else if b = 0xE0 then some ⟨2, 0xA0, 0xBF, 0⟩
  else if b = 0xED then some ⟨2, 0x80, 0x9F, 13⟩
  else if b < 0xF0 then some ⟨2, 0x80, 0xBF, b.toNat % 16⟩
  else if b = 0xF0 then some ⟨3, 0x90, 0xBF, 0⟩
  else if b < 0xF4 then some ⟨3, 0x80, 0xBF, b.toNat % 8⟩
  else if b = 0xF4 then some ⟨3, 0x80, 0x8F, 4⟩
  else none

/-- The start of a sequence of octets: a character and the number of octets after the first that it
takes, or the number of octets after the first that could still have begun one. -/
def start (b : UInt8) (rest : List UInt8) : Char × Nat ⊕ Nat :=
  match Lead.of? b with
  | none => .inr 0
  | some ⟨0, _, _, bits⟩ => .inl (Char.ofNat bits, 0)
  | some ⟨tails, low, high, bits⟩ =>
    match rest with
    | [] => .inr 0
    | second :: more =>
      if second < low || high < second then .inr 0
      else
        let others := (more.takeWhile isTail).take (tails - 1)
        if others.length + 1 = tails then
          .inl (Char.ofNat ((second :: others).foldl (fun n b => 64 * n + tailBits b) bits), tails)
        else .inr (others.length + 1)

/-- The characters that the octets encode, with `replacement` standing for each part that encodes
none; `none` when there is such a part and no replacement. -/
def decodeWith (replacement : Option Char) : List UInt8 → Option (List Char)
  | [] => some []
  | b :: rest =>
    match start b rest with
    | .inl (c, taken) => (decodeWith replacement (rest.drop taken)).map (c :: ·)
    | .inr taken =>
      match replacement with
      | none => none
      | some c => (decodeWith replacement (rest.drop taken)).map (c :: ·)
  termination_by octets => octets.length
  decreasing_by all_goals (simp only [List.length_drop, List.length_cons]; omega)

def decode? (octets : List UInt8) : Option String :=
  (decodeWith none octets).map String.ofList

/-- The text that the octets encode, each part that encodes nothing shown as U+FFFD. -/
def decodeLossy (octets : List UInt8) : String :=
  String.ofList ((decodeWith (some '\uFFFD') octets).getD [])

def encode (s : String) : List UInt8 :=
  s.toUTF8.toList

end Stepwise.Text.Utf8
