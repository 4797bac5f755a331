import Mathlib.Data.Nat.Digits.Defs
import Stepwise.Instant.Text

/-!
# Reading the texts of instants

The text in which an instant is stored can be read back if the calendar and the clock have the
instant and its year has four digits (`Instant.parse?_storedText`).
-/

namespace Stepwise.Instant

open Json.Numeral (digitsValue)

/-- Whether calendar and clock have the instant, and its year is written without a sign. -/
def IsLegible (t : Instant) : Prop :=
  t.isValid = true ∧ 0 ≤ t.date.year ∧ t.date.year ≤ 9999

instance (t : Instant) : Decidable t.IsLegible :=
  inferInstanceAs (Decidable (_ ∧ _))

/-- The numbers of a reading that calendar and clock have, all of two digits but for the year and
the fraction. -/
theorem bounds_of_isValid {t : Instant} (valid : t.isValid = true) :
    t.date.month ≤ 12 ∧ t.date.day ≤ 31 ∧ t.hour < 24 ∧ t.minute < 60 ∧ t.second ≤ 60 ∧
      t.nanos < 1000000000 := by
  simp only [isValid, Date.isValid, Bool.and_eq_true, decide_eq_true_eq] at valid
  obtain ⟨⟨⟨⟨⟨⟨⟨-, month⟩, -⟩, day⟩, hour⟩, minute⟩, second⟩, nanos⟩ := valid
  have days : Date.daysInMonth t.date.year t.date.month ≤ 31 := by
    unfold Date.daysInMonth
    split
    · split <;> decide
    all_goals decide
  exact ⟨month, day.trans days, hour, minute, second, nanos⟩

private theorem digitsValue_padded (length n : Nat) : digitsValue (padded length n) = n := by
  have value (digits : List Char) : digitsValue digits = Nat.ofDigitChars 10 digits 0 :=
    Nat.ofDigitChars_eq_foldl.symm
  rw [value, padded, Nat.ofDigitChars_append, Nat.ofDigitChars_replicate_zero, Nat.mul_zero,
    Nat.ofDigitChars_ten_toDigits]

theorem length_padded {length n : Nat} (positive : 0 < length) (fits : n < 10 ^ length) :
    (padded length n).length = length := by
  have short := (Nat.length_toDigits_le_iff (b := 10) (by decide) positive).mpr fits
  rw [padded, List.length_append, List.length_replicate]
  omega

theorem isDigit_padded (length n : Nat) : ∀ c ∈ padded length n, c.isDigit = true := by
  intro c member
  obtain zero | digit := List.mem_append.mp member
  · rw [List.eq_of_mem_replicate zero]
    rfl
  · exact Nat.isDigit_of_mem_toDigits (by decide) (by decide) digit

/-- A number in the digits of its length is read back, whatever stands after it. -/
theorem number?_padded {length n : Nat} (positive : 0 < length) (fits : n < 10 ^ length)
    (rest : List Char) : number? length length (padded length n ++ rest) = some (n, rest) := by
  have digits : ((padded length n ++ rest).takeWhile Char.isDigit).take length =
      padded length n := by
    rw [List.takeWhile_append_of_pos (isDigit_padded length n)]
    exact List.take_left' (length_padded positive fits)
  rw [number?, digits, length_padded positive fits, if_neg (Nat.lt_irrefl length),
    digitsValue_padded, List.drop_left' (length_padded positive fits)]

private theorem number?_bind {α : Type} {length n : Nat} (positive : 0 < length)
    (fits : n < 10 ^ length) (rest : List Char) (f : Nat × List Char → Option α) :
    (number? length length (padded length n ++ rest) >>= f) = f (n, rest) := by
  rw [number?_padded positive fits]
  rfl

private theorem expect?_bind {α : Type} (c : Char) (rest : List Char) (f : List Char → Option α) :
    (expect? c (c :: rest) >>= f) = f rest := by
  rw [expect?, if_pos rfl]
  rfl

/-- The digits of a fraction are read back before a text that does not begin with a digit. -/
theorem fraction?_padded (length n : Nat) (positive : 0 < length) (short : length ≤ 9)
    (fits : n < 10 ^ length) {rest : List Char} (apart : rest.takeWhile Char.isDigit = []) :
    fraction? ('.' :: (padded length n ++ rest)) = some (n * 10 ^ (9 - length), rest) := by
  have digits : (padded length n ++ rest).takeWhile Char.isDigit = padded length n := by
    rw [List.takeWhile_append_of_pos (isDigit_padded length n), apart, List.append_nil]
  have same := length_padded positive fits
  have filled : (padded length n).isEmpty = false := by
    rw [List.isEmpty_eq_false_iff]
    intro empty
    rw [empty, List.length_nil] at same
    omega
  have whole : (padded length n).take 9 = padded length n :=
    List.take_of_length_le (same.trans_le short)
  simp only [fraction?, digits, filled, whole, digitsValue_padded, same, Bool.false_eq_true,
    ↓reduceIte, List.drop_left' same]
  rfl

/-- A fraction is read back before the sign of UTC. -/
theorem fraction?_fractionText {nanos : Nat} (fits : nanos < 1000000000) :
    fraction? (fractionText nanos ++ "+00:00".toList) = some (nanos, "+00:00".toList) := by
  have apart : "+00:00".toList.takeWhile Char.isDigit = [] := by decide
  unfold fractionText
  split
  · next zero =>
    rw [zero]
    rfl
  · split
    · next millis =>
      have read := fraction?_padded 3 (nanos / 1000000) (by decide) (by decide)
        (by omega) apart
      rw [List.cons_append, read]
      exact congrArg (fun n => some (n, "+00:00".toList))
        (Nat.div_mul_cancel (Nat.dvd_of_mod_eq_zero millis))
    · split
      · next micros =>
        have read := fraction?_padded 6 (nanos / 1000) (by decide) (by decide)
          (by omega) apart
        rw [List.cons_append, read]
        exact congrArg (fun n => some (n, "+00:00".toList))
          (Nat.div_mul_cancel (Nat.dvd_of_mod_eq_zero micros))
      · have read := fraction?_padded 9 nanos (by decide) (by decide) fits apart
        rw [List.cons_append, read]
        exact congrArg (fun n => some (n, "+00:00".toList)) (Nat.mul_one nanos)

/-- A valid reading without offset is its own instant. -/
theorem ofReading?_zero {t : Instant} (legible : t.IsLegible) : ofReading? t 0 = some t := by
  obtain ⟨valid, early, late⟩ := legible
  have range : t.isInRange = true := by
    rw [isInRange, Bool.and_eq_true, decide_eq_true_eq, decide_eq_true_eq]
    omega
  have same : t.ofLocal 0 = t := by
    simp only [isValid, Bool.and_eq_true, decide_eq_true_eq] at valid
    obtain ⟨⟨⟨⟨-, hour⟩, minute⟩, -⟩, -⟩ := valid
    have minutes : ((t.hour * 60 + t.minute : Nat) - 0 : Int) = (t.hour * 60 + t.minute : Nat) :=
      Int.sub_zero _
    rw [ofLocal, minutes, if_neg (by omega), if_neg (by omega)]
    have ofDay :
        (((t.hour * 60 + t.minute : Nat) : Int) % 1440).toNat = t.hour * 60 + t.minute := by
      omega
    simp only [ofDay]
    have hours : (t.hour * 60 + t.minute) / 60 = t.hour := by omega
    have rest : (t.hour * 60 + t.minute) % 60 = t.minute := by omega
    rw [hours, rest]
  simp only [ofReading?, valid, range, same, Bool.and_self, ↓reduceIte]

/-- An instant is read back from the text in which it is stored. -/
theorem parse?_storedText {t : Instant} (legible : t.IsLegible) :
    parse? t.storedText = some t := by
  have ⟨valid, early, late⟩ := legible
  obtain ⟨month, day, hour, minute, second, nanos⟩ := bounds_of_isValid valid
  have text : t.storedText.toList = padded 4 t.date.year.toNat ++ ('-' :: (padded 2 t.date.month ++
      ('-' :: (padded 2 t.date.day ++ ('T' :: (padded 2 t.hour ++ (':' :: (padded 2 t.minute ++
        (':' :: (padded 2 t.second ++ (fractionText t.nanos ++ "+00:00".toList))))))))))) := by
    rw [storedText, textWith, String.toList_append, String.toList_ofList, dateText, clockText,
      yearText, if_pos ⟨early, late⟩]
    simp only [List.append_assoc, List.cons_append, List.nil_append]
  have reading : (⟨⟨t.date.year.toNat, t.date.month, t.date.day⟩, t.hour, t.minute, t.second,
      t.nanos⟩ : Instant) = t := by
    rw [Int.toNat_of_nonneg early]
  have fraction := fraction?_fractionText nanos
  have zone : offset? (expect? ':') "+00:00".toList = some (0, []) := by decide +kernel
  generalize "+00:00".toList = suffix at text zone fraction
  rw [parse?, text]
  refine (number?_bind (by decide) (by omega) _ _).trans ?_
  refine (expect?_bind ..).trans ((number?_bind (by decide) (by omega) _ _).trans ?_)
  refine (expect?_bind ..).trans ((number?_bind (by decide) (by omega) _ _).trans ?_)
  refine (number?_bind (by decide) (by omega) _ _).trans ?_
  refine (expect?_bind ..).trans ((number?_bind (by decide) (by omega) _ _).trans ?_)
  refine (expect?_bind ..).trans ((number?_bind (by decide) (by omega) _ _).trans ?_)
  dsimp only
  rw [fraction, Option.bind_eq_bind, Option.bind_some, zone]
  dsimp only [Option.bind_eq_bind, Option.bind_some]
  rw [reading]
  exact ofReading?_zero legible

end Stepwise.Instant
