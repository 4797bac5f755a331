import Stepwise.Proofs.Identifier.Slug
import Stepwise.Proofs.Instant.Text
import Stepwise.Template

/-!
# The identifiers of new migrations

The identifier that is made of a slug and an instant is valid if and only if the year of the instant
has four digits, as it begins with a sign otherwise (`Template.isValid_id_iff`). Identifiers and
written instants have letters, digits and a few marks of ASCII only.
-/

namespace Stepwise

namespace Instant

variable {now : Instant}

private theorem isDigit_or_sign_of_yearText {year : Int} {c : Char} (member : c ∈ yearText year) :
    c.isDigit = true ∨ c = '-' ∨ c = '+' := by
  rw [yearText] at member
  split at member
  · exact .inl (isDigit_padded _ _ c member)
  · rcases List.mem_cons.mp member with rfl | digit
    · split
      · exact .inr (.inl rfl)
      · exact .inr (.inr rfl)
    · exact .inl (isDigit_padded _ _ c digit)

private theorem toList_stamp (now : Instant) :
    now.stamp.toList = yearText now.date.year ++ (padded 2 now.date.month ++
      (padded 2 now.date.day ++ (padded 2 now.hour ++ (padded 2 now.minute ++
        padded 2 now.second)))) := by
  simp only [stamp, String.toList_ofList, List.append_assoc]

/-- A stamp has digits only after its year. -/
theorem isDigit_or_mem_of_stamp {c : Char} (member : c ∈ now.stamp.toList) :
    c.isDigit = true ∨ c ∈ yearText now.date.year := by
  simp only [toList_stamp, List.mem_append] at member
  rcases member with year | digit | digit | digit | digit | digit
  · exact .inr year
  all_goals exact .inl (isDigit_padded _ _ c digit)

/-- The stamp of an instant whose year has four digits has fourteen digits. -/
theorem stamp_of_isLegible (legible : now.IsLegible) :
    now.stamp.toList.length = 14 ∧ ∀ c ∈ now.stamp.toList, c.isDigit = true := by
  obtain ⟨valid, early, late⟩ := legible
  obtain ⟨month, day, hour, minute, second, -⟩ := bounds_of_isValid valid
  have year : yearText now.date.year = padded 4 now.date.year.toNat := if_pos ⟨early, late⟩
  constructor
  · have four : (padded 4 now.date.year.toNat).length = 4 := length_padded (by decide) (by omega)
    have two {n : Nat} (fits : n < 100) : (padded 2 n).length = 2 := length_padded (by decide) fits
    rw [toList_stamp, year]
    simp only [List.length_append, four, two (n := now.date.month) (by omega),
      two (n := now.date.day) (by omega), two (n := now.hour) (by omega),
      two (n := now.minute) (by omega), two (n := now.second) (by omega)]
  · intro c member
    rcases isDigit_or_mem_of_stamp member with digit | member
    · exact digit
    · rw [year] at member
      exact isDigit_padded _ _ c member

/-- The stamp of any other instant begins with a sign. -/
theorem stamp_of_not_isLegible (clock : now.isValid = true) (illegible : ¬ now.IsLegible) :
    ∃ sign rest, now.stamp.toList = sign :: rest ∧ Text.isDecimalDigit sign = false := by
  have year : ¬ (0 ≤ now.date.year ∧ now.date.year ≤ 9999) := fun range => illegible ⟨clock, range⟩
  rw [toList_stamp, yearText, if_neg year, List.cons_append]
  refine ⟨_, _, rfl, ?_⟩
  split
  · rfl
  · rfl

/-- The text that is shown to people has legible characters only. -/
theorem isLegible_of_plainText {c : Char} (member : c ∈ now.plainText.toList) :
    Text.isLegible c = true := by
  have zones : " UTC".toList.all Text.isLegible = true := by decide
  have letter (digit : c.isDigit = true) : Text.isLegible c = true :=
    Text.isLegible_of_isAlphanum (Bool.or_eq_true_iff.mpr (.inr digit))
  have sign (char : c.isDigit = true ∨ c = '-' ∨ c = '+') : Text.isLegible c = true := by
    rcases char with digit | rfl | rfl
    · exact letter digit
    · rfl
    · rfl
  simp only [plainText, dateText, clockText, String.toList_append, String.toList_ofList,
    List.append_assoc, List.mem_append, List.mem_singleton] at member
  rcases member with
    year | rfl | month | rfl | day | rfl | hour | rfl | minute | rfl | second | zone
  · exact sign (isDigit_or_sign_of_yearText year)
  · rfl
  · exact letter (isDigit_padded _ _ c month)
  · rfl
  · exact letter (isDigit_padded _ _ c day)
  · rfl
  · exact letter (isDigit_padded _ _ c hour)
  · rfl
  · exact letter (isDigit_padded _ _ c minute)
  · rfl
  · exact letter (isDigit_padded _ _ c second)
  · exact List.all_eq_true.mp zones c zone

end Instant

namespace Template

variable {slug : String} {now : Instant}

theorem toList_id (slug : String) (now : Instant) :
    (id slug now).toList = now.stamp.toList ++ '-' :: slug.toList := by
  rw [id, String.toList_append, String.toList_append, List.append_assoc]
  rfl

/-- An identifier has letters, digits and a few marks. -/
theorem isAlphanum_or_mark_of_id (named : MigrationId.IsSlug slug.toList) {c : Char}
    (member : c ∈ (id slug now).toList) :
    c.isAlphanum = true ∨ c = '-' ∨ c = '+' ∨ c = '_' := by
  obtain ⟨first, rest, text, letter, others⟩ := named
  rw [toList_id, text, List.mem_append, List.mem_cons, List.mem_cons] at member
  rcases member with stamp | rfl | rfl | member
  · have char : c.isDigit = true ∨ c = '-' ∨ c = '+' := by
      rcases Instant.isDigit_or_mem_of_stamp stamp with digit | year
      · exact .inl digit
      · exact Instant.isDigit_or_sign_of_yearText year
    rcases char with digit | hyphen | plus
    · exact .inl (Bool.or_eq_true_iff.mpr (.inr digit))
    · exact .inr (.inl hyphen)
    · exact .inr (.inr (.inl plus))
  · exact .inr (.inl rfl)
  · exact .inl letter
  · rcases others c member with letter | underscore
    · exact .inl letter
    · exact .inr (.inr (.inr underscore))

/-- An identifier has characters of ASCII with a picture of their own, and no slash. -/
theorem toNat_of_id (named : MigrationId.IsSlug slug.toList) {c : Char}
    (member : c ∈ (id slug now).toList) : 0x20 ≤ c.toNat ∧ c.toNat < 0x7F ∧ c.toNat ≠ 0x2F := by
  rcases isAlphanum_or_mark_of_id named member with letter | rfl | rfl | rfl
  · have range := Text.toNat_of_isAlphanum letter
    omega
  all_goals decide

/-- The identifier of a new migration is valid if and only if the year of the instant has four
digits. -/
theorem isValid_id_iff (clock : now.isValid = true) (named : MigrationId.IsSlug slug.toList) :
    MigrationId.isValid (id slug now) = true ↔ now.IsLegible := by
  constructor
  · intro valid
    by_contra illegible
    obtain ⟨sign, after, stamp, apart⟩ := Instant.stamp_of_not_isLegible clock illegible
    have undated : (id slug now).toList.takeWhile Text.isDecimalDigit = [] := by
      rw [toList_id, stamp, List.cons_append, List.takeWhile_cons, apart]
      rfl
    rw [MigrationId.isValid, undated] at valid
    cases valid
  · intro legible
    obtain ⟨length, digits⟩ := Instant.stamp_of_isLegible legible
    apply MigrationId.isValid_of_isSlug _ _ named
    · omega
    · exact fun c member => Text.isDecimalDigit_of_isDigit (digits c member)

end Template

end Stepwise
