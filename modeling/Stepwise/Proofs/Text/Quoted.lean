import Stepwise.Text.Quoted
import Stepwise.Yaml.Cursor

/-!
# Which characters a quoted text shows

A tab and the characters with a picture of their own are legible: a YAML text may have them anywhere
in a line, and between double quotes they stand for themselves (`quoteChar_of_isLegible`) or are
written after a backslash. The others are written by their code point between braces, but for the
null character and line breaks (`quoteChar_of_hidden`).
-/

namespace Stepwise.Text

open Yaml (isAllowed isBreak)

/-- Whether a character is a tab or has a picture of its own. -/
def isLegible (c : Char) : Bool :=
  c = '\t' || isShown c

variable {c : Char}

theorem isLegible_iff : isLegible c = true ↔ c = '\t' ∨ isShown c = true := by
  rw [isLegible, Bool.or_eq_true, decide_eq_true_eq]

/-- Letters and digits are characters of ASCII with a picture of their own. -/
theorem toNat_of_isAlphanum {c : Char} (letter : c.isAlphanum = true) :
    0x30 ≤ c.toNat ∧ c.toNat < 0x7B := by
  change (decide (c.val ≥ 'A'.val ∧ c.val ≤ 'Z'.val) ||
    (decide (c.val ≥ 'a'.val) && decide (c.val ≤ 'z'.val)) ||
    (decide (c.val ≥ '0'.val) && decide (c.val ≤ '9'.val))) = true at letter
  simp only [Bool.or_eq_true, Bool.and_eq_true, decide_eq_true_eq, ge_iff_le,
    UInt32.le_iff_toNat_le] at letter
  have same : c.toNat = c.val.toNat := rfl
  have numbers : '0'.val.toNat = 0x30 ∧ '9'.val.toNat = 0x39 ∧ 'A'.val.toNat = 0x41 ∧
      'Z'.val.toNat = 0x5A ∧ 'a'.val.toNat = 0x61 ∧ 'z'.val.toNat = 0x7A := by decide
  omega

theorem isLegible_of_toNat {c : Char} (least : 0x20 ≤ c.toNat) (most : c.toNat < 0x7F) :
    isLegible c = true := by
  rw [isLegible, isShown, if_pos most, decide_eq_true least, Bool.or_true]

theorem isLegible_of_isAlphanum {c : Char} (letter : c.isAlphanum = true) : isLegible c = true := by
  have range := toNat_of_isAlphanum letter
  exact isLegible_of_toNat (by omega) (by omega)

/-- A character that has a picture of its own is neither a control character nor a separator of
lines or paragraphs nor a noncharacter of the basic plane. -/
theorem toNat_of_isShown (shown : isShown c = true) :
    0x20 ≤ c.toNat ∧ c.toNat < 0x7F ∨ 0xA0 < c.toNat ∧ c.toNat ≠ 0x2028 ∧ c.toNat ≠ 0x2029 ∧
      c.toNat ≠ 0xFFFE ∧ c.toNat ≠ 0xFFFF := by
  by_cases ascii : c.toNat < 0x7F
  · rw [isShown, if_pos ascii, decide_eq_true_eq] at shown
    exact .inl ⟨shown, ascii⟩
  · rw [isShown, if_neg ascii, Bool.not_eq_true', ← Bool.not_eq_true, Ranges.contains_iff] at shown
    have apart (first last : Nat) (hidden : (first, last) ∈ hiddenRanges) :
        ¬ (first ≤ c.toNat ∧ c.toNat ≤ last) :=
      fun within => shown ⟨_, hidden, within⟩
    have controls := apart 0x7F 0xA0 (by decide)
    have separators := apart 0x2028 0x202F (by decide)
    have noncharacters := apart 0xFFFE 0xFFFF (by decide)
    omega

/-- A legible character does not break a line. -/
theorem isBreak_of_isLegible (legible : isLegible c = true) : isBreak c = false := by
  rcases isLegible_iff.mp legible with rfl | shown
  · rfl
  · have number := toNat_of_isShown shown
    rw [← Bool.not_eq_true]
    intro breaks
    simp only [isBreak, Bool.or_eq_true, decide_eq_true_eq] at breaks
    rcases breaks with (((rfl | rfl) | rfl) | rfl) | rfl
    all_goals exact absurd number (by decide)

/-- A legible character may stand in a YAML text. -/
theorem isAllowed_of_isLegible (legible : isLegible c = true) : isAllowed c = true := by
  rcases isLegible_iff.mp legible with rfl | shown
  · rfl
  · have number := toNat_of_isShown shown
    simp only [isAllowed, Bool.or_eq_true, Bool.and_eq_true, decide_eq_true_eq]
    omega

/-- A legible character is written as itself, but for a quote, a backslash and a tab. -/
theorem quoteChar_of_isLegible (legible : isLegible c = true) (quote : c ≠ '"')
    (backslash : c ≠ '\\') (tab : c ≠ '\t') : quoteChar c = [c] := by
  have shown := (isLegible_iff.mp legible).resolve_left tab
  unfold quoteChar
  split
  · exact absurd shown (by decide)
  · contradiction
  · exact absurd shown (by decide)
  · exact absurd shown (by decide)
  · contradiction
  · contradiction
  · rw [if_pos shown]

/-- A legible character is written with legible characters. -/
theorem isLegible_of_mem_quoteChar {d : Char} (legible : isLegible c = true)
    (member : d ∈ quoteChar c) : isLegible d = true := by
  by_cases escaped : c = '"' ∨ c = '\\' ∨ c = '\t'
  · have written : (quoteChar c).all isLegible = true := by
      rcases escaped with rfl | rfl | rfl
      · rfl
      · rfl
      · rfl
    exact List.all_eq_true.mp written d member
  · simp only [not_or] at escaped
    rw [quoteChar_of_isLegible legible escaped.1 escaped.2.1 escaped.2.2] at member
    rwa [List.mem_singleton.mp member]

/-- How a character is written that has no picture of its own. -/
theorem quoteChar_of_hidden (hidden : isLegible c = false) (solid : c ≠ '\x00')
    (onLine : isBreak c = false) :
    quoteChar c = '\\' :: 'u' :: '\x7b' :: (hex c.toNat ++ ['\x7d']) := by
  have unseen : isShown c = false := (Bool.or_eq_false_iff.mp hidden).2
  unfold quoteChar
  split
  · contradiction
  · exact absurd hidden (by decide)
  · exact absurd onLine (by decide)
  · exact absurd onLine (by decide)
  · exact absurd unseen (by decide)
  · exact absurd unseen (by decide)
  · rw [if_neg (Bool.eq_false_iff.mp unseen)]
    rfl

private theorem quoteChar_ne_nil (c : Char) : quoteChar c ≠ [] := by
  unfold quoteChar
  split
  all_goals try exact List.cons_ne_nil _ _
  split
  · exact List.cons_ne_nil _ _
  · exact List.cons_ne_nil _ _

/-- Quoting does not make a text shorter. -/
theorem length_le_flatMap (cs : List Char) : cs.length ≤ (cs.flatMap quoteChar).length := by
  induction cs with
  | nil => exact Nat.le_refl 0
  | cons c cs ih =>
    have positive := List.length_pos_iff.mpr (quoteChar_ne_nil c)
    rw [List.flatMap_cons, List.length_append, List.length_cons]
    omega

theorem flatMap_quoteChar_spaces (n : Nat) :
    (List.replicate n ' ').flatMap quoteChar = List.replicate n ' ' := by
  induction n with
  | zero => rfl
  | succ n ih =>
    rw [List.replicate_succ, List.flatMap_cons, ih]
    rfl

end Stepwise.Text
