import Mathlib.Data.List.Sort
import Mathlib.Data.String.Basic
import Stepwise.Proofs.Identifier.Parts
import Stepwise.Proofs.Registry.OrderedMap

/-!
# The order of identifiers and the order of time

Identifiers are ordered as texts, from the first character on. A stamp with fewer digits stands for
the beginning of its day, hour or minute, and a hyphen sorts before all digits, so this order is
that of time as long as stamps are followed by hyphens. An underscore sorts after all digits: behind
it stands what happened later (`MigrationId.chronological`).
-/

namespace Stepwise

/-- A registry lists one identifier before another if it is smaller. -/
theorem Registry.sublist_ids_iff {r : Registry} {a b : String} (first : a ∈ r.ids)
    (second : b ∈ r.ids) : [a, b].Sublist r.ids ↔ a < b := by
  refine ⟨r.ascending_ids.forall_sublist, fun less => ?_⟩
  have pair : [a, b].Pairwise (· < ·) := List.pairwise_pair.mpr less
  have within : [a, b] ⊆ r.ids := by
    intro id member
    rcases List.mem_pair.mp member with rfl | rfl
    · exact first
    · exact second
  exact List.sublist_of_subperm_of_pairwise (List.subperm_of_subset pair.nodup within) pair
    r.ascending_ids

namespace MigrationId

def stamp (id : String) : List Char :=
  id.toList.takeWhile Text.isDecimalDigit

def separator? (id : String) : Option Char :=
  (id.toList.dropWhile Text.isDecimalDigit).head?

/-- The number that digits denote when they are filled up to a number of digits by zeros behind. -/
def filledValue (width : Nat) (digits : List Char) : Nat :=
  Nat.ofDigitChars 10 (digits.rightpad width '0') 0

/-- The moment that a timestamp stands for, to the second. -/
def moment (id : String) : Nat :=
  filledValue 14 (stamp id)

variable {width : Nat} {c : Char} {digits others : List Char}

theorem filledValue_nil (width : Nat) : filledValue width [] = 0 := by
  rw [filledValue, List.rightpad, List.nil_append, Nat.ofDigitChars_replicate_zero, Nat.mul_zero]

theorem filledValue_cons (width : Nat) (c : Char) (digits : List Char)
    (fits : digits.length ≤ width) :
    filledValue (width + 1) (c :: digits) =
      10 ^ width * (c.toNat - '0'.toNat) + filledValue width digits := by
  have behind : (c :: digits).rightpad (width + 1) '0' = c :: digits.rightpad width '0' := by
    rw [List.rightpad, List.rightpad, List.length_cons, Nat.add_sub_add_right, List.cons_append]
  have length : (digits.rightpad width '0').length = width := by
    rw [List.length_rightpad, Nat.max_eq_left fits]
  rw [filledValue, behind, Nat.ofDigitChars_cons, Nat.ofDigitChars_eq_ofDigitChars_zero, length,
    Nat.mul_zero, Nat.zero_add, filledValue]

private theorem toNat_of_isDigit (digit : c.isDigit = true) : 48 ≤ c.toNat ∧ c.toNat ≤ 57 :=
  Char.isDigit_iff_toNat.mp digit

private theorem filledValue_lt (plain : ∀ c ∈ digits, c.isDigit = true)
    (fits : digits.length ≤ width) :
    filledValue width digits < 10 ^ width := by
  induction digits generalizing width with
  | nil =>
    rw [filledValue_nil]
    exact Nat.pow_pos (by decide)
  | cons c digits ih =>
    obtain ⟨digit, plain⟩ := List.forall_mem_cons.mp plain
    obtain ⟨width, rfl⟩ := Nat.exists_eq_add_of_le' (Nat.one_le_of_lt fits)
    have fits := Nat.le_of_succ_le_succ fits
    have rest := ih plain fits
    have value : c.toNat - '0'.toNat ≤ 9 := by
      have range := toNat_of_isDigit digit
      change c.toNat - 48 ≤ 9
      omega
    calc filledValue (width + 1) (c :: digits)
        = 10 ^ width * (c.toNat - '0'.toNat) + filledValue width digits :=
          filledValue_cons width c digits fits
      _ < 10 ^ width * 9 + 10 ^ width :=
          Nat.add_lt_add_of_le_of_lt (Nat.mul_le_mul_left _ value) rest
      _ = 10 ^ (width + 1) := by rw [Nat.pow_succ]; omega

/-- Of two numbers, the one with the greater digit in front is the greater one. -/
theorem filledValue_cons_lt_iff {d : Char} (digit : c.isDigit = true) (digit' : d.isDigit = true)
    (plain : ∀ c ∈ digits, c.isDigit = true) (plain' : ∀ c ∈ others, c.isDigit = true)
    (fits : digits.length ≤ width) (fits' : others.length ≤ width) :
    filledValue (width + 1) (c :: digits) < filledValue (width + 1) (d :: others) ↔
      c < d ∨ c = d ∧ filledValue width digits < filledValue width others := by
  have range := toNat_of_isDigit digit
  have range' := toNat_of_isDigit digit'
  have small := filledValue_lt plain fits
  have small' := filledValue_lt plain' fits'
  have less : c < d ↔ c.toNat < d.toNat := UInt32.lt_iff_toNat_lt
  rw [filledValue_cons width c digits fits, filledValue_cons width d others fits', less,
    ← Char.toNat_inj]
  change 10 ^ width * (c.toNat - 48) + _ < 10 ^ width * (d.toNat - 48) + _ ↔ _
  generalize 10 ^ width = unit at small small' ⊢
  rcases Nat.lt_trichotomy c.toNat d.toNat with less | same | greater
  · have step : unit * (c.toNat - 48 + 1) ≤ unit * (d.toNat - 48) :=
      Nat.mul_le_mul_left unit (by omega)
    rw [Nat.mul_succ] at step
    exact iff_of_true (by omega) (.inl less)
  · rw [same, Nat.add_lt_add_iff_left]
    simp only [Nat.lt_irrefl, true_and, false_or]
  · have step : unit * (d.toNat - 48 + 1) ≤ unit * (c.toNat - 48) :=
      Nat.mul_le_mul_left unit (by omega)
    rw [Nat.mul_succ] at step
    exact iff_of_false (by omega) (by omega)

/-- An identifier of an earlier moment is the smaller text, unless an underscore stands where the
other one goes on with a digit. -/
theorem chars_lt_iff {separator separator' : Char} {name name' : List Char}
    (separates : separator = '-' ∨ separator = '_')
    (plain : ∀ c ∈ digits, c.isDigit = true) (plain' : ∀ c ∈ others, c.isDigit = true)
    (fits : digits.length ≤ width) (fits' : others.length ≤ width)
    (earlier : filledValue width digits < filledValue width others) :
    digits ++ separator :: name < others ++ separator' :: name' ↔
      ¬ (separator = '_' ∧ digits <+: others) := by
  induction digits generalizing others width with
  | nil =>
    cases others with
    | nil => exact absurd earlier (Nat.lt_irrefl _)
    | cons d others =>
      have range := toNat_of_isDigit (plain' d (List.mem_cons_self ..))
      rw [List.nil_append, List.cons_append, List.cons_lt_cons_iff]
      rcases separates with rfl | rfl
      · have less : '-' < d := UInt32.lt_iff_toNat_lt.mpr (by change 45 < d.toNat; omega)
        simp [less]
      · have above : ¬ '_' < d := mt UInt32.lt_iff_toNat_lt.mp (by change ¬ 95 < d.toNat; omega)
        have apart : '_' ≠ d := by
          rintro rfl
          exact absurd range.2 (by decide)
        simp [above, apart]
  | cons c digits ih =>
    cases others with
    | nil =>
      rw [filledValue_nil] at earlier
      exact absurd earlier (Nat.not_lt_zero _)
    | cons d others =>
      obtain ⟨digit, plain⟩ := List.forall_mem_cons.mp plain
      obtain ⟨digit', plain'⟩ := List.forall_mem_cons.mp plain'
      obtain ⟨width, rfl⟩ := Nat.exists_eq_add_of_le' (Nat.one_le_of_lt fits)
      have short := Nat.le_of_succ_le_succ fits
      have short' := Nat.le_of_succ_le_succ fits'
      rw [List.cons_append, List.cons_append, List.cons_lt_cons_iff, List.cons_prefix_cons]
      rcases (filledValue_cons_lt_iff digit digit' plain plain' short short').mp earlier with
        less | ⟨same, behind⟩
      · have apart : c ≠ d := by
          rintro rfl
          exact Char.lt_irrefl _ less
        simp [less, apart]
      · have rest := ih plain plain' short short' behind
        simp [same, rest]

/-- Valid identifiers of earlier moments are the smaller texts and stand before in every registry,
whatever their names, unless an underscore follows a timestamp with which the other one begins. -/
theorem chronological {a b : String} (validA : isValid a = true) (validB : isValid b = true)
    (plainA : ∀ c ∈ stamp a, c.isDigit = true) (plainB : ∀ c ∈ stamp b, c.isDigit = true)
    (earlier : moment a < moment b) :
    (a < b ↔ ¬ (separator? a = some '_' ∧ stamp a <+: stamp b)) ∧
      ∀ r : Registry, a ∈ r.ids → b ∈ r.ids →
        ([a, b].Sublist r.ids ↔ ¬ (separator? a = some '_' ∧ stamp a <+: stamp b)) := by
  obtain ⟨p, rfl⟩ := exists_parts validA
  obtain ⟨q, rfl⟩ := exists_parts validB
  have order : p.text < q.text ↔
      ¬ (separator? p.text = some '_' ∧ stamp p.text <+: stamp q.text) := by
    rw [moment, moment] at earlier
    simp only [stamp, separator?, Parts.takeWhile_text, Parts.dropWhile_text, List.head?_cons,
      Option.some.injEq] at plainA plainB earlier ⊢
    rw [String.lt_iff_toList_lt, p.toList_text, q.toList_text]
    exact chars_lt_iff p.separates plainA plainB p.size.2 q.size.2 earlier
  exact ⟨order, fun r first second => (Registry.sublist_ids_iff first second).trans order⟩

/-- A timestamp of a day before one of its minutes, whatever separates the name of the later one. -/
theorem chronological_minute :
    let users := Definition.creating "20250101-users" "users"
    let orders := Definition.creating "202501010001_orders" "orders"
    users.id < orders.id ∧
      ∃ r, Registry.ofList [orders.toMigration, users.toMigration] = .ok r ∧
        [users.id, orders.id].Sublist r.ids := by
  intro users orders
  have told := chronological (a := users.id) (b := orders.id) (by decide) (by decide)
    (List.all_eq_true.mp (by decide)) (List.all_eq_true.mp (by decide)) (by decide)
  have hyphen : ¬ (separator? users.id = some '_' ∧ stamp users.id <+: stamp orders.id) := by decide
  obtain ⟨r, made⟩ : ∃ r, Registry.ofList [orders.toMigration, users.toMigration] = .ok r :=
    Registry.exists_ofList (by decide) (by decide)
  have listed := told.2 r ((Registry.mem_ids_iff made).mpr (by decide))
    ((Registry.mem_ids_iff made).mpr (by decide))
  exact ⟨told.1.mpr hyphen, r, made, listed.mpr hyphen⟩

/-- Behind an underscore stands what happened a minute later, so that the order of identifiers is
not that of their moments. -/
theorem underscore_late :
    let users := Definition.creating "20250101_users" "users"
    let orders := Definition.creating "202501010001-orders" "orders"
    (isValid users.id = true ∧ isValid orders.id = true) ∧
      ((∀ c ∈ stamp users.id, c.isDigit = true) ∧ ∀ c ∈ stamp orders.id, c.isDigit = true) ∧
      moment users.id < moment orders.id ∧ ¬ users.id < orders.id ∧
      ∃ r, Registry.ofList [users.toMigration, orders.toMigration] = .ok r ∧
        r.ids = [orders.id, users.id] := by
  exact ⟨by decide, ⟨List.all_eq_true.mp (by decide), List.all_eq_true.mp (by decide)⟩, by decide,
    by decide, _, rfl, by decide⟩

end MigrationId

end Stepwise
