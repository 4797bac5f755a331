import Mathlib.Logic.ExistsUnique
import Mathlib.Logic.Function.Defs
import Stepwise.Migration.Id

/-!
# The parts of an identifier

The identifiers are the texts that are written by parts: a stamp of decimal digits, a separator and
a name. The check of an identifier accepts exactly these texts, and a text has one way of being
written by parts (`MigrationId.accepts_grammar`).
-/

namespace Stepwise.MigrationId

/-- Whether a character is a letter or a digit of ASCII. -/
def IsLetterOrDigit (c : Char) : Prop :=
  'a' ≤ c ∧ c ≤ 'z' ∨ 'A' ≤ c ∧ c ≤ 'Z' ∨ '0' ≤ c ∧ c ≤ '9'

instance (c : Char) : Decidable (IsLetterOrDigit c) :=
  inferInstanceAs (Decidable (_ ∨ _))

/-- The parts of an identifier: the digits of its timestamp, the separator, and a name by its first
character and the rest. -/
@[ext]
structure Parts where
  stamp : List Char
  separator : Char
  first : Char
  rest : List Char
  digits : ∀ c ∈ stamp, Text.isDecimalDigit c = true
  size : 8 ≤ stamp.length ∧ stamp.length ≤ 14
  separates : separator = '-' ∨ separator = '_'
  begins : IsLetterOrDigit first
  continues : ∀ c ∈ rest, IsLetterOrDigit c ∨ c = '_' ∨ c = '.' ∨ c = '-'

/-- The text that the parts write, with nothing before, between or after them. -/
def Parts.text (p : Parts) : String :=
  String.ofList (p.stamp ++ p.separator :: p.first :: p.rest)

variable {c : Char} {id : String}

theorem isAlphanum_iff : c.isAlphanum = true ↔ IsLetterOrDigit c := by
  change (decide (c.val ≥ 'A'.val ∧ c.val ≤ 'Z'.val) ||
    (decide (c.val ≥ 'a'.val) && decide (c.val ≤ 'z'.val)) ||
    (decide (c.val ≥ '0'.val) && decide (c.val ≤ '9'.val))) = true ↔ _
  simp only [IsLetterOrDigit, Char.le_def, Bool.or_eq_true, Bool.and_eq_true, decide_eq_true_eq,
    ge_iff_le]
  rw [or_assoc, or_left_comm]

theorem isNameChar_iff :
    isNameChar c = true ↔ IsLetterOrDigit c ∨ c = '_' ∨ c = '.' ∨ c = '-' := by
  simp only [isNameChar, Bool.or_eq_true, decide_eq_true_eq, isAlphanum_iff, or_assoc]

theorem isSeparator_iff : isSeparator c = true ↔ c = '-' ∨ c = '_' := by
  simp only [isSeparator, Bool.or_eq_true, decide_eq_true_eq]

namespace Parts

theorem toList_text (p : Parts) : p.text.toList = p.stamp ++ p.separator :: p.first :: p.rest :=
  String.toList_ofList

/-- No separator is a decimal digit, so that the stamp is all digits in front. -/
theorem not_digit_separator (p : Parts) : Text.isDecimalDigit p.separator = false := by
  rcases p.separates with hyphen | underscore
  · rw [hyphen]
    decide
  · rw [underscore]
    decide

theorem takeWhile_text (p : Parts) : p.text.toList.takeWhile Text.isDecimalDigit = p.stamp := by
  rw [toList_text, List.takeWhile_append_of_pos p.digits,
    List.takeWhile_cons_of_neg (by simp [p.not_digit_separator]), List.append_nil]

theorem dropWhile_text (p : Parts) :
    p.text.toList.dropWhile Text.isDecimalDigit = p.separator :: p.first :: p.rest := by
  rw [toList_text, List.dropWhile_append_of_pos p.digits,
    List.dropWhile_cons_of_neg (by simp [p.not_digit_separator])]

theorem isValid_text (p : Parts) : isValid p.text = true := by
  have name : p.rest.all isNameChar = true :=
    List.all_eq_true.mpr fun c member => isNameChar_iff.mpr (p.continues c member)
  simp only [isValid, takeWhile_text, dropWhile_text, p.size.1, p.size.2,
    isSeparator_iff.mpr p.separates, isAlphanum_iff.mpr p.begins, name, decide_true, Bool.and_self]

/-- A text is written by one choice of parts. -/
theorem text_injective : Function.Injective text := by
  intro p q same
  have stamps : p.stamp = q.stamp := by rw [← p.takeWhile_text, ← q.takeWhile_text, same]
  have names : p.separator :: p.first :: p.rest = q.separator :: q.first :: q.rest := by
    rw [← p.dropWhile_text, ← q.dropWhile_text, same]
  simp only [List.cons.injEq] at names
  exact Parts.ext stamps names.1 names.2.1 names.2.2

end Parts

/-- A valid identifier has parts. -/
theorem exists_parts (valid : isValid id = true) : ∃ p : Parts, p.text = id := by
  simp only [isValid, Bool.and_eq_true, decide_eq_true_eq] at valid
  obtain ⟨size, name⟩ := valid
  have whole := List.takeWhile_append_dropWhile (p := Text.isDecimalDigit) (l := id.toList)
  have digits : ∀ c ∈ id.toList.takeWhile Text.isDecimalDigit, Text.isDecimalDigit c = true :=
    List.all_eq_true.mp List.all_takeWhile
  split at name
  · next separator first rest split =>
    simp only [Bool.and_eq_true, List.all_eq_true] at name
    obtain ⟨⟨separates, begins⟩, continues⟩ := name
    rw [split] at whole
    let p : Parts :=
      { stamp := id.toList.takeWhile Text.isDecimalDigit, separator, first, rest, digits, size
        separates := isSeparator_iff.mp separates
        begins := isAlphanum_iff.mp begins
        continues := fun c member => isNameChar_iff.mp (continues c member) }
    exact ⟨p, String.toList_injective (p.toList_text.trans whole)⟩
  · contradiction

theorem isValid_iff_exists_parts : isValid id = true ↔ ∃ p : Parts, p.text = id := by
  refine ⟨exists_parts, ?_⟩
  rintro ⟨p, rfl⟩
  exact p.isValid_text

/-- A text is accepted as an identifier exactly if it can be written by parts, and there is never
more than one way to do so. -/
theorem accepts_grammar (id : String) :
    (isValid id = true ↔ ∃ p : Parts, p.text = id) ∧
      ∀ p q : Parts, p.text = id → q.text = id → p = q :=
  ⟨isValid_iff_exists_parts, fun _ _ first second => Parts.text_injective (first.trans second.symm)⟩

/-- The digits of a stamp may be those of any script, and a digit after the separator begins the
name; a stamp of fifteen digits has no parts, and neither has a line break at the end. -/
theorem accepts_grammar_digits :
    (∃! p : Parts, p.text = "٢٠٢٥0101_1.-") ∧
      (∀ p : Parts, p.text ≠ "202501010000000-a") ∧ ∀ p : Parts, p.text ≠ "20250101-a\n" := by
  refine ⟨?_, fun p written => ?_, fun p written => ?_⟩
  · obtain ⟨p, written⟩ := (accepts_grammar "٢٠٢٥0101_1.-").1.mp (by decide)
    exact ⟨p, written, fun q other => (accepts_grammar _).2 q p other written⟩
  · exact absurd ((accepts_grammar _).1.mpr ⟨p, written⟩) (by decide)
  · exact absurd ((accepts_grammar _).1.mpr ⟨p, written⟩) (by decide)

end Stepwise.MigrationId
