import Mathlib.Tactic.SplitIfs
import Stepwise.Text.Utf8

/-!
# Texts are read back from their octets

The octets of a text are those of its characters one after the other (`encode_eq`), and decoding
them gives the text again. No other octets give it (`decode?_eq_some_iff`): what is overlong, a
surrogate or beyond the last character is refused.
-/

namespace Stepwise.Text.Utf8

private theorem toList_loop (bytes : ByteArray) (i : Nat) (before : List UInt8) :
    ByteArray.toList.loop bytes i before = before.reverse ++ bytes.data.toList.drop i := by
  induction i, before using ByteArray.toList.loop.induct bytes with
  | case1 i before inside ih =>
    have get : bytes.get! i = bytes.data.toList[i] := getElem!_pos bytes.data i inside
    rw [ByteArray.toList.loop, if_pos inside, ih, List.reverse_cons, List.append_assoc, get,
      List.singleton_append, ← List.drop_eq_getElem_cons]
  | case2 i before outside =>
    rw [ByteArray.toList.loop, if_neg outside, List.drop_eq_nil_of_le (Nat.le_of_not_lt outside),
      List.append_nil]

/-- The octets of a text are those of its characters. -/
theorem encode_eq (s : String) : encode s = s.toList.flatMap String.utf8EncodeChar := by
  rw [encode, String.toUTF8_eq_toByteArray, ← String.utf8Encode_toList, List.utf8Encode,
    ByteArray.toList, toList_loop]
  exact List.toList_data_toByteArray

theorem encode_append (s t : String) : encode (s ++ t) = encode s ++ encode t := by
  rw [encode_eq, encode_eq, encode_eq, String.toList_append, List.flatMap_append]

/-- What the first octet of a character announces, by its number. -/
theorem Lead.of?_eq (b : UInt8) :
    Lead.of? b =
      if b.toNat < 0x80 then some ⟨0, 0x80, 0xBF, b.toNat⟩
      else if b.toNat < 0xC2 then none
      else if b.toNat < 0xE0 then some ⟨1, 0x80, 0xBF, b.toNat % 32⟩
      else if b.toNat = 0xE0 then some ⟨2, 0xA0, 0xBF, 0⟩
      else if b.toNat = 0xED then some ⟨2, 0x80, 0x9F, 13⟩
      else if b.toNat < 0xF0 then some ⟨2, 0x80, 0xBF, b.toNat % 16⟩
      else if b.toNat = 0xF0 then some ⟨3, 0x90, 0xBF, 0⟩
      else if b.toNat < 0xF4 then some ⟨3, 0x80, 0xBF, b.toNat % 8⟩
      else if b.toNat = 0xF4 then some ⟨3, 0x80, 0x8F, 4⟩
      else none := by
  simp only [Lead.of?, UInt8.lt_iff_toNat_lt, ← UInt8.toNat_inj]
  rfl

/-- A character is begun by an octet that announces it when as many octets continue it as announced
and the second is within the announced bounds. -/
theorem start_of_lead {b : UInt8} (second : UInt8) (others : List UInt8) {lead : Lead}
    (announced : Lead.of? b = some lead) (tails : lead.tails = others.length + 1)
    (low : lead.low.toNat ≤ second.toNat) (high : second.toNat ≤ lead.high.toNat)
    (continued : ∀ o ∈ others, isTail o = true) (rest : List UInt8) :
    start b (second :: (others ++ rest)) =
      .inl (Char.ofNat ((second :: others).foldl (fun n o => 64 * n + tailBits o) lead.bits),
        lead.tails) := by
  obtain ⟨count, least, greatest, bits⟩ := lead
  subst tails
  have within : (second < least || greatest < second) = false := by
    rw [Bool.or_eq_false_iff, decide_eq_false_iff_not, decide_eq_false_iff_not,
      UInt8.not_lt, UInt8.not_lt, UInt8.le_iff_toNat_le, UInt8.le_iff_toNat_le]
    exact ⟨low, high⟩
  have taken : ((others ++ rest).takeWhile isTail).take others.length = others := by
    rw [List.takeWhile_append_of_pos continued, List.take_left']
    rfl
  simp only [start, announced, within, Bool.false_eq_true, ↓reduceIte, Nat.add_sub_cancel, taken]

/-- The octet that continues a character with the lowest six bits of a number. -/
def tail (n : Nat) : UInt8 :=
  UInt8.ofNat (n % 64 + 0x80)

private theorem toNat_tail (n : Nat) : (tail n).toNat = n % 64 + 0x80 := by
  rw [tail, UInt8.toNat_ofNat']
  omega

private theorem isTail_tail (n : Nat) : isTail (tail n) = true := by
  rw [isTail, Bool.and_eq_true, decide_eq_true_eq, decide_eq_true_eq, UInt8.le_iff_toNat_le,
    UInt8.le_iff_toNat_le, toNat_tail]
  exact ⟨by change 128 ≤ _; omega, by change _ ≤ 191; omega⟩

private theorem tailBits_tail (n : Nat) : tailBits (tail n) = n % 64 := by
  rw [tailBits, toNat_tail]
  omega

private theorem le_tail (n : Nat) : (0x80 : UInt8).toNat ≤ (tail n).toNat := by
  rw [toNat_tail]
  exact Nat.le_add_left 0x80 (n % 64)

private theorem tail_le (n : Nat) : (tail n).toNat ≤ (0xBF : UInt8).toNat := by
  rw [toNat_tail]
  change _ ≤ 0xBF
  omega

/-- The octets of a character, by its code point. -/
theorem utf8EncodeChar_eq (c : Char) :
    String.utf8EncodeChar c =
      if c.toNat ≤ 0x7F then [UInt8.ofNat c.toNat]
      else if c.toNat ≤ 0x7FF then [UInt8.ofNat (c.toNat / 64 % 32 + 0xC0), tail c.toNat]
      else if c.toNat ≤ 0xFFFF then
        [UInt8.ofNat (c.toNat / 4096 % 16 + 0xE0), tail (c.toNat / 64), tail c.toNat]
      else
        [UInt8.ofNat (c.toNat / 262144 % 8 + 0xF0), tail (c.toNat / 4096), tail (c.toNat / 64),
          tail c.toNat] :=
  rfl

/-- The first octet of a character of two octets. -/
theorem Lead.of?_two {n : Nat} (least : 0x80 ≤ n) (most : n ≤ 0x7FF) :
    Lead.of? (UInt8.ofNat (n / 64 % 32 + 0xC0)) = some ⟨1, 0x80, 0xBF, n / 64⟩ := by
  have first : (UInt8.ofNat (n / 64 % 32 + 0xC0)).toNat = n / 64 + 0xC0 := by
    rw [UInt8.toNat_ofNat']
    omega
  rw [of?_eq, first, if_neg (by omega), if_neg (by omega), if_pos (by omega)]
  have bits : (n / 64 + 0xC0) % 32 = n / 64 := by omega
  rw [bits]

/-- The first octet of a character of three octets; the second is within the bounds it announces, as
the form is not overlong and the character no surrogate. -/
theorem Lead.of?_three {n : Nat} (least : 0x800 ≤ n) (most : n ≤ 0xFFFF)
    (scalar : n < 0xD800 ∨ 0xDFFF < n) :
    ∃ low high, Lead.of? (UInt8.ofNat (n / 4096 % 16 + 0xE0)) = some ⟨2, low, high, n / 4096⟩ ∧
      low.toNat ≤ (tail (n / 64)).toNat ∧ (tail (n / 64)).toNat ≤ high.toNat := by
  have first : (UInt8.ofNat (n / 4096 % 16 + 0xE0)).toNat = n / 4096 + 0xE0 := by
    rw [UInt8.toNat_ofNat']
    omega
  rw [of?_eq, first, if_neg (by omega), if_neg (by omega), if_neg (by omega)]
  by_cases lowest : n / 4096 = 0
  · refine ⟨0xA0, 0xBF, by rw [lowest]; rfl, ?_, tail_le _⟩
    rw [toNat_tail]
    change 0xA0 ≤ _
    omega
  rw [if_neg (by omega)]
  by_cases surrogates : n / 4096 = 13
  · refine ⟨0x80, 0x9F, by rw [surrogates]; rfl, le_tail _, ?_⟩
    rw [toNat_tail]
    change _ ≤ 0x9F
    omega
  have bits : (n / 4096 + 0xE0) % 16 = n / 4096 := by omega
  rw [if_neg (by omega), if_pos (by omega), bits]
  exact ⟨0x80, 0xBF, rfl, le_tail _, tail_le _⟩

/-- The first octet of a character of four octets; the second is within the bounds it announces, as
the form is not overlong and the character not beyond the last one. -/
theorem Lead.of?_four {n : Nat} (least : 0x10000 ≤ n) (most : n ≤ 0x10FFFF) :
    ∃ low high, Lead.of? (UInt8.ofNat (n / 262144 % 8 + 0xF0)) = some ⟨3, low, high, n / 262144⟩ ∧
      low.toNat ≤ (tail (n / 4096)).toNat ∧ (tail (n / 4096)).toNat ≤ high.toNat := by
  have first : (UInt8.ofNat (n / 262144 % 8 + 0xF0)).toNat = n / 262144 + 0xF0 := by
    rw [UInt8.toNat_ofNat']
    omega
  rw [of?_eq, first, if_neg (by omega), if_neg (by omega), if_neg (by omega), if_neg (by omega),
    if_neg (by omega), if_neg (by omega)]
  by_cases lowest : n / 262144 = 0
  · refine ⟨0x90, 0xBF, by rw [lowest]; rfl, ?_, tail_le _⟩
    rw [toNat_tail]
    change 0x90 ≤ _
    omega
  rw [if_neg (by omega)]
  by_cases last : n / 262144 = 4
  · refine ⟨0x80, 0x8F, by rw [last]; rfl, le_tail _, ?_⟩
    rw [toNat_tail]
    change _ ≤ 0x8F
    omega
  have bits : (n / 262144 + 0xF0) % 8 = n / 262144 := by omega
  rw [if_pos (by omega), bits]
  exact ⟨0x80, 0xBF, rfl, le_tail _, tail_le _⟩

/-- The octets of a character are read as that character, whatever stands after them. -/
theorem start_utf8EncodeChar (c : Char) :
    ∃ first others, String.utf8EncodeChar c = first :: others ∧
      ∀ rest, start first (others ++ rest) = .inl (c, others.length) := by
  have char : Char.ofNat c.toNat = c := Char.ofNat_toNat c
  have scalar : c.toNat < 0xD800 ∨ 0xDFFF < c.toNat ∧ c.toNat < 0x110000 := c.valid
  have octets := utf8EncodeChar_eq c
  generalize c.toNat = n at char scalar octets
  subst char
  rw [octets]
  split_ifs with one two three
  · refine ⟨_, _, rfl, fun rest => ?_⟩
    have first : (UInt8.ofNat n).toNat = n := by
      rw [UInt8.toNat_ofNat']
      omega
    have announced : Lead.of? (UInt8.ofNat n) = some ⟨0, 0x80, 0xBF, n⟩ := by
      rw [Lead.of?_eq, first, if_pos (by omega)]
    simp only [start, announced, List.length_nil]
  · refine ⟨_, _, rfl, fun rest => ?_⟩
    have announced := Lead.of?_two (by omega) two
    have read := start_of_lead (tail n) [] announced rfl (le_tail n) (tail_le n) (by simp) rest
    have value : 64 * (n / 64) + n % 64 = n := by omega
    simp only [List.foldl_cons, List.foldl_nil, tailBits_tail, value] at read
    exact read
  · obtain ⟨low, high, announced, above, below⟩ :=
      Lead.of?_three (n := n) (by omega) three (by omega)
    refine ⟨_, _, rfl, fun rest => ?_⟩
    have read := start_of_lead (tail (n / 64)) [tail n] announced rfl
      above below (by simp [isTail_tail]) rest
    have value : 64 * (64 * (n / 4096) + n / 64 % 64) + n % 64 = n := by omega
    simp only [List.foldl_cons, List.foldl_nil, tailBits_tail, value] at read
    exact read
  · obtain ⟨low, high, announced, above, below⟩ := Lead.of?_four (n := n) (by omega) (by omega)
    refine ⟨_, _, rfl, fun rest => ?_⟩
    have read := start_of_lead (tail (n / 4096)) [tail (n / 64), tail n] announced
      rfl above below (by simp [isTail_tail]) rest
    have value : 64 * (64 * (64 * (n / 262144) + n / 4096 % 64) + n / 64 % 64) + n % 64 = n := by
      omega
    simp only [List.foldl_cons, List.foldl_nil, tailBits_tail, value] at read
    exact read

/-- Decoding the octets of characters gives the characters. -/
theorem decodeWith_flatMap (replacement : Option Char) (cs : List Char) :
    decodeWith replacement (cs.flatMap String.utf8EncodeChar) = some cs := by
  induction cs with
  | nil => rw [List.flatMap_nil, decodeWith]
  | cons c cs ih =>
    obtain ⟨first, others, octets, read⟩ := start_utf8EncodeChar c
    rw [List.flatMap_cons, octets, List.cons_append, decodeWith, read]
    dsimp only
    rw [List.drop_left', ih, Option.map_some]
    rfl

/-- A text is read back from its octets. -/
theorem decode?_encode (s : String) : decode? (encode s) = some s := by
  rw [decode?, encode_eq, decodeWith_flatMap, Option.map_some, String.ofList_toList]

theorem encode_injective {s t : String} (same : encode s = encode t) : s = t :=
  Option.some.inj (by rw [← decode?_encode s, same, decode?_encode])

/-- What an octet announces that begins a character of its own. -/
theorem Lead.toNat_of_single {b low high : UInt8} {bits : Nat}
    (announced : of? b = some ⟨0, low, high, bits⟩) : b.toNat = bits ∧ bits < 0x80 := by
  rw [of?_eq] at announced
  split_ifs at announced with ascii
  all_goals cases announced
  exact ⟨rfl, ascii⟩

/-- What an octet announces that begins a character of two octets. -/
theorem Lead.toNat_of_two {b low high : UInt8} {bits : Nat}
    (announced : of? b = some ⟨1, low, high, bits⟩) :
    b.toNat = bits + 0xC0 ∧ 2 ≤ bits ∧ bits < 0x20 ∧ low.toNat = 0x80 ∧ high.toNat = 0xBF := by
  rw [of?_eq] at announced
  split_ifs at announced
  all_goals cases announced
  exact ⟨by omega, by omega, by omega, rfl, rfl⟩

/-- What an octet announces that begins a character of three octets. The bounds of the second octet
keep the character from being one of fewer octets or a surrogate. -/
theorem Lead.toNat_of_three {b low high : UInt8} {bits : Nat}
    (announced : of? b = some ⟨2, low, high, bits⟩) :
    b.toNat = bits + 0xE0 ∧ bits < 0x10 ∧ 0x80 ≤ low.toNat ∧ high.toNat ≤ 0xBF ∧
      (bits = 0 → 0xA0 ≤ low.toNat) ∧ (bits = 13 → high.toNat ≤ 0x9F) := by
  rw [of?_eq] at announced
  split_ifs at announced
  all_goals cases announced
  · exact ⟨by omega, by decide, by decide, by decide, fun _ => by decide, nofun⟩
  · exact ⟨by omega, by decide, by decide, by decide, nofun, fun _ => by decide⟩
  · exact ⟨by omega, by omega, by decide, by decide, by omega, by omega⟩

/-- What an octet announces that begins a character of four octets. The bounds of the second octet
keep the character from being one of fewer octets or beyond the last one. -/
theorem Lead.toNat_of_four {b low high : UInt8} {bits : Nat}
    (announced : of? b = some ⟨3, low, high, bits⟩) :
    b.toNat = bits + 0xF0 ∧ bits ≤ 4 ∧ 0x80 ≤ low.toNat ∧ high.toNat ≤ 0xBF ∧
      (bits = 0 → 0x90 ≤ low.toNat) ∧ (bits = 4 → high.toNat ≤ 0x8F) := by
  rw [of?_eq] at announced
  split_ifs at announced
  all_goals cases announced
  · exact ⟨by omega, by decide, by decide, by decide, fun _ => by decide, nofun⟩
  · exact ⟨by omega, by omega, by decide, by decide, by omega, by omega⟩
  · exact ⟨by omega, by decide, by decide, by decide, nofun, fun _ => by decide⟩

private theorem Lead.tails_le {b : UInt8} {lead : Lead} (announced : of? b = some lead) :
    lead.tails ≤ 3 := by
  rw [of?_eq] at announced
  split_ifs at announced
  all_goals
    cases announced
    simp only [Nat.reduceLeDiff, Nat.le_refl]

private theorem toNat_of_isTail {o : UInt8} (continues : isTail o = true) :
    0x80 ≤ o.toNat ∧ o.toNat ≤ 0xBF := by
  rwa [isTail, Bool.and_eq_true, decide_eq_true_eq, decide_eq_true_eq, UInt8.le_iff_toNat_le,
    UInt8.le_iff_toNat_le] at continues

/-- An octet that continues a character is the one of its lowest six bits. -/
theorem tail_eq {o : UInt8} {n : Nat} (range : 0x80 ≤ o.toNat ∧ o.toNat ≤ 0xBF)
    (bits : n % 64 = tailBits o) : tail n = o := by
  rw [tailBits] at bits
  rw [← UInt8.toNat_inj, toNat_tail]
  omega

private theorem tailBits_lt (o : UInt8) : tailBits o < 64 :=
  Nat.mod_lt _ (by decide)

/-- What stands in front when a character is read: an octet of its own, or one that announces as
many octets as continue it, the second within the announced bounds. -/
theorem start_eq_inl {b : UInt8} {rest : List UInt8} {c : Char} {taken : Nat}
    (read : start b rest = .inl (c, taken)) :
    ∃ lead, Lead.of? b = some lead ∧ taken = lead.tails ∧
      (lead.tails = 0 ∧ c = Char.ofNat lead.bits ∨
        ∃ second others more, rest = second :: (others ++ more) ∧ lead.tails = others.length + 1 ∧
          lead.low.toNat ≤ second.toNat ∧ second.toNat ≤ lead.high.toNat ∧
          (∀ o ∈ others, isTail o = true) ∧
          c = Char.ofNat
            ((second :: others).foldl (fun n o => 64 * n + tailBits o) lead.bits)) := by
  rw [start] at read
  split at read
  · cases read
  · next low high bits announced =>
    cases read
    exact ⟨_, announced, rfl, .inl ⟨rfl, rfl⟩⟩
  · next tails low high bits _ announced =>
    split at read
    · cases read
    · next second more =>
      split at read
      · cases read
      · next within =>
        rw [Bool.not_eq_true, Bool.or_eq_false_iff, decide_eq_false_iff_not,
          decide_eq_false_iff_not, UInt8.not_lt, UInt8.not_lt, UInt8.le_iff_toNat_le,
          UInt8.le_iff_toNat_le] at within
        dsimp only at read
        split at read
        · next count =>
          cases read
          have continued : ∀ o ∈ more.takeWhile isTail, isTail o = true :=
            List.all_eq_true.mp List.all_takeWhile
          have front : (more.takeWhile isTail).take (taken - 1) <+: more :=
            (List.take_prefix _ _).trans (List.takeWhile_prefix _)
          obtain ⟨behind, whole⟩ := front
          refine ⟨_, announced, rfl, .inr ⟨second, _, behind, ?_, count.symm, within.1, within.2,
            fun o member => continued o (List.mem_of_mem_take member), rfl⟩⟩
          rw [whole]
        · cases read

private theorem toNat_ofNat_of_scalar {n : Nat} (scalar : n < 0xD800 ∨ 0xDFFF < n ∧ n < 0x110000) :
    (Char.ofNat n).toNat = n := by
  rw [Char.ofNat, dif_pos scalar]
  rfl

private theorem ofNat_eq_toUInt8 {n : Nat} {b : UInt8} (same : n = b.toNat) :
    UInt8.ofNat n = b := by
  rw [same, UInt8.ofNat_toNat]

/-- The octets of a character that has several. -/
theorem utf8EncodeChar_of_lead {b second : UInt8} {others : List UInt8} {lead : Lead}
    (announced : Lead.of? b = some lead) (count : lead.tails = others.length + 1)
    (low : lead.low.toNat ≤ second.toNat) (high : second.toNat ≤ lead.high.toNat)
    (continued : ∀ o ∈ others, isTail o = true) :
    String.utf8EncodeChar
        (Char.ofNat ((second :: others).foldl (fun n o => 64 * n + tailBits o) lead.bits)) =
      b :: second :: others := by
  obtain ⟨tails, least, greatest, bits⟩ := lead
  dsimp only at count low high ⊢
  subst count
  have few := Lead.tails_le announced
  have second_lt := tailBits_lt second
  have second_eq : tailBits second = second.toNat % 64 := rfl
  cases others with
  | nil =>
    obtain ⟨first, positive, small, lowest, highest⟩ := Lead.toNat_of_two announced
    have value := toNat_ofNat_of_scalar (n := 64 * bits + tailBits second) (by omega)
    rw [List.foldl_cons, List.foldl_nil, utf8EncodeChar_eq, value, if_neg (by omega),
      if_pos (by omega), ofNat_eq_toUInt8 (b := b) (by omega),
      tail_eq (o := second) (by omega) (by omega)]
  | cons third others =>
    have third_lt := tailBits_lt third
    have third_range := toNat_of_isTail (continued third (List.mem_cons_self ..))
    cases others with
    | nil =>
      obtain ⟨first, small, lowest, highest, overlong, surrogate⟩ := Lead.toNat_of_three announced
      have value := toNat_ofNat_of_scalar (n := 64 * (64 * bits + tailBits second) + tailBits third)
        (by omega)
      rw [List.foldl_cons, List.foldl_cons, List.foldl_nil, utf8EncodeChar_eq, value,
        if_neg (by omega), if_neg (by omega), if_pos (by omega),
        ofNat_eq_toUInt8 (b := b) (by omega), tail_eq (o := second) (by omega) (by omega),
        tail_eq (o := third) third_range (by omega)]
    | cons fourth others =>
      have fourth_lt := tailBits_lt fourth
      have fourth_range := toNat_of_isTail (continued fourth (by simp))
      cases others with
      | nil =>
        obtain ⟨first, small, lowest, highest, overlong, beyond⟩ := Lead.toNat_of_four announced
        have value := toNat_ofNat_of_scalar
          (n := 64 * (64 * (64 * bits + tailBits second) + tailBits third) + tailBits fourth)
          (by omega)
        rw [List.foldl_cons, List.foldl_cons, List.foldl_cons, List.foldl_nil, utf8EncodeChar_eq,
          value, if_neg (by omega), if_neg (by omega), if_neg (by omega),
          ofNat_eq_toUInt8 (b := b) (by omega), tail_eq (o := second) (by omega) (by omega),
          tail_eq (o := third) third_range (by omega),
          tail_eq (o := fourth) fourth_range (by omega)]
      | cons fifth others =>
        simp only [List.length_cons] at few
        omega

/-- A character is read from its own octets and no others. -/
theorem utf8EncodeChar_append_of_start {b : UInt8} {rest : List UInt8} {c : Char} {taken : Nat}
    (read : start b rest = .inl (c, taken)) :
    String.utf8EncodeChar c ++ rest.drop taken = b :: rest := by
  obtain ⟨lead, announced, rfl, ⟨alone, rfl⟩ | several⟩ := start_eq_inl read
  · obtain ⟨tails, low, high, bits⟩ := lead
    dsimp only at alone
    subst alone
    obtain ⟨first, ascii⟩ := Lead.toNat_of_single announced
    have value := toNat_ofNat_of_scalar (n := bits) (by omega)
    rw [utf8EncodeChar_eq, value, if_pos (by omega), ofNat_eq_toUInt8 (b := b) first.symm]
    rfl
  · obtain ⟨second, others, more, rfl, count, low, high, continued, rfl⟩ := several
    rw [utf8EncodeChar_of_lead announced count low high continued, count, List.drop_succ_cons,
      List.drop_left]
    rfl

/-- The octets that give characters are those of the characters. -/
theorem flatMap_of_decodeWith {octets : List UInt8} {cs : List Char}
    (decoded : decodeWith none octets = some cs) :
    cs.flatMap String.utf8EncodeChar = octets := by
  fun_induction decodeWith none octets generalizing cs with
  | case1 =>
    cases decoded
    rfl
  | case2 b rest c taken read ih =>
    obtain ⟨others, behind, rfl⟩ := Option.map_eq_some_iff.mp decoded
    rw [List.flatMap_cons, ih behind]
    exact utf8EncodeChar_append_of_start read
  | case3 => cases decoded
  | case4 b rest taken read c same => cases same

/-- A text is decoded from its own octets and no others. -/
theorem encode_of_decode? {octets : List UInt8} {s : String} (decoded : decode? octets = some s) :
    encode s = octets := by
  obtain ⟨cs, characters, rfl⟩ := Option.map_eq_some_iff.mp decoded
  rw [encode_eq, String.toList_ofList]
  exact flatMap_of_decodeWith characters

theorem decode?_eq_some_iff {octets : List UInt8} {s : String} :
    decode? octets = some s ↔ octets = encode s := by
  refine ⟨fun decoded => (encode_of_decode? decoded).symm, ?_⟩
  rintro rfl
  exact decode?_encode s

/-- A character of ASCII is its own octet. -/
theorem utf8EncodeChar_ascii {c : Char} (ascii : c.toNat < 0x80) :
    String.utf8EncodeChar c = [c.toNat.toUInt8] := by
  have small : c.val.toNat ≤ 127 := Nat.le_of_lt_succ ascii
  simp only [String.utf8EncodeChar, small, ↓reduceIte]
  rfl

end Stepwise.Text.Utf8
